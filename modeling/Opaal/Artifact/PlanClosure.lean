import Mathlib.Data.List.Pairwise
import Opaal.Artifact.PlanTraversal

/-!
# What a plan of accepted actions is

The actions of an accepted plan are its selected closure in depth-first order.  Its requests
are those of its actions, where actions that ask for the same authority agree on the verdict.
-/

namespace Opaal.Workflow

open Opaal.Graph List
open Opaal.Json (Tree Members)
open Opaal.Machine (bind_ok)
open Opaal.Order
open Tree (asStr eq_object get? index)

/-! ## Plans -/

/-- An action node as its schema has it. -/
structure PlanAction where
  id : String
  ordinal : Nat
  actionId : String
  requests : List Tree
  dependencies : List String
  outcomeClass : String

def planAction? (action : Tree) : Option PlanAction := do
  let id ← (action.index "id").asStr
  let ordinal ← (action.index "ordinal").asU64
  let actionId ← (action.index "action_id").asStr
  let requests ← (action.index "requests").asArray
  let dependencies ← (← (action.index "dependencies").asArray).mapM asStr
  let outcomeClass ← ((action.index "outcome").index "class").asStr
  return { id, ordinal, actionId, requests, dependencies, outcomeClass }

/-- What the checks of the actions of a plan read. -/
structure Plan where
  actions : List PlanAction
  requests : List Tree
  secrets : List Tree
  outcomeClass : String

def plan? (object : Members) : Option Plan := do
  let object := Tree.object object
  let actions ← (← (object.index "actions").asArray).mapM planAction?
  let requests ← ((object.index "authority").index "requests").asArray
  let secrets := ((object.index "secrets").asArray).getD []
  let outcomeClass ← ((object.index "outcome").index "class").asStr
  return { actions, requests, secrets, outcomeClass }

namespace Plan

variable (plan : Plan)

def ids : List String := plan.actions.map PlanAction.id

def dependenciesOf (id : String) : List String :=
  (plan.actions.find? fun action => action.id == id).elim [] PlanAction.dependencies

def ordinalOf (id : String) : Nat := (plan.actions.find? fun action => action.id == id).elim 0 PlanAction.ordinal

/-- The dependencies of an action, those of a lower ordinal first. -/
def orderedDependencies (id : String) : List String :=
  (plan.dependenciesOf id).insertionSort fun first second => plan.ordinalOf first ≤ plan.ordinalOf second

/-- The actions are the closure of the first one in depth-first order, and the outcome is that
of the whole. -/
structure Closed (plan : Plan) (root : String) : Prop where
  first : plan.ids.head? = some root
  ordinals : plan.actions.map PlanAction.ordinal = List.range plan.actions.length
  actionIds : (plan.actions.map PlanAction.actionId).Nodup
  ids : plan.ids.Nodup
  present : ∀ action ∈ plan.actions, ∀ dependency ∈ action.dependencies, dependency ∈ plan.ids
  acyclic : ∀ id path, Path plan.dependenciesOf id path id → path = []
  reachable : ∀ id ∈ plan.ids, ∃ path, Path plan.dependenciesOf root path id
  preorder : Preorder plan.orderedDependencies [] [root] plan.ids
  outcome : plan.outcomeClass = "success" ↔ (∀ request ∈ plan.requests, isGranted request = true) ∧
    (∀ action ∈ plan.actions, action.outcomeClass = "success") ∧ plan.secrets.length ≤ 1

/-- Every action is entered with a branch that has room. -/
def Shallow (root : String) : Prop :=
  ∀ id ∈ plan.ids, ∃ path, Path plan.dependenciesOf root path id ∧ path.length < maxDependencyDepth

variable (toWriter : String → List UInt8)

def KeyBefore (first second : Tree) : Prop :=
  ∃ key key', authorityKey toWriter first = .ok key ∧ authorityKey toWriter second = .ok key' ∧ KeyLt key key'

/-- The requests in the order of their keys are those of the actions. -/
structure Joins : Prop where
  ordered : plan.requests.Pairwise (KeyBefore toWriter)
  union : ∀ request, request ∈ plan.requests ↔ ∃ action ∈ plan.actions, request ∈ action.requests

/-- Actions that ask for the same effect on the same scope were given the same verdict. -/
def RequestsAgree : Prop :=
  ∀ action ∈ plan.actions, ∀ action' ∈ plan.actions, ∀ request ∈ action.requests, ∀ request' ∈ action'.requests,
    authorityKey toWriter request = authorityKey toWriter request' → request = request'

end Plan

/-! ## Gathering -/

section Gathering

variable {toWriter : String → List UInt8}

variable {message outcomeClass : String} {object : Members} {gathered : Gathered} {actions : List Tree}
  {reads : List PlanAction}

theorem refuse_ok {refused : Bool} (passed : refuse refused message = .ok ()) : refused = false := by
  cases refused with
  | false => rfl
  | true => cases passed

theorem requiredArray_index {name : String} {value : List Tree} (passed : requiredArray object name = .ok value) :
    (index (.object object) name).asArray = some value := by
  obtain ⟨_, found, isRead⟩ := requiredAs_ok passed
  simp [index, get?, Tree.asObject, found, isRead]

theorem member_index {name : String} {value : Tree} (passed : member object name = .ok value) :
    index (.object object) name = value := by
  simp [index, get?, Tree.asObject, expect_ok passed]

theorem asObject_ok {value : Tree} {context : String} (passed : asObject value context = .ok object) :
    value = .object object := by
  unfold asObject at passed
  cases held : value.asObject with
  | none => rw [held] at passed; cases passed
  | some =>
    rw [held] at passed
    cases passed
    exact eq_object held

theorem readOutcomeClass_ok {outcome : Tree} (passed : readOutcomeClass outcome message = .ok outcomeClass) : (outcome.index "class").asStr = some outcomeClass := by
  obtain ⟨_, isObject, passed⟩ := bind_ok passed
  rw [eq_object (expect_ok isObject)]
  exact requiredString_index passed

theorem disagrees_iff {executable : Bool} (agrees : disagrees executable outcomeClass = false) :
    outcomeClass = "success" ↔ executable = true := by
  cases executable with
  | true => simpa [disagrees] using agrees
  | false =>
    have refused : outcomeClass = "refused" := by simpa [disagrees] using agrees
    rw [refused]
    decide

/-- Each item is read when all are. -/
theorem mapM_expect_ok {values : List Tree} {texts : List String}
    (passed : (values.mapM fun value => expect value.asStr message) = .ok texts) : values.mapM asStr = some texts := by
  induction values generalizing texts with
  | nil =>
    cases passed
    rfl
  | cons _ _ ih =>
    rw [mapM_cons] at passed
    obtain ⟨_, first, passed⟩ := bind_ok passed
    obtain ⟨_, rest, passed⟩ := bind_ok passed
    cases passed
    rw [mapM_cons, expect_ok first, ih rest]
    rfl

/-- The key of a request that has one. -/
def requestKey (toWriter : String → List UInt8) (request : Tree) : List UInt8 := (authorityKey toWriter request).toOption.getD []

def keyed (toWriter : String → List UInt8) (request : Tree) : List UInt8 × Tree := (requestKey toWriter request, request)

theorem requestKey_of_ok {request : Tree} {key : List UInt8} (read : authorityKey toWriter request = .ok key) :
    requestKey toWriter request = key := by
  rw [requestKey, read]
  rfl

/-- Requests whose keys are read. -/
def AllKeyed (toWriter : String → List UInt8) (requests : List Tree) : Prop :=
  ∀ request ∈ requests, authorityKey toWriter request = .ok (requestKey toWriter request)

theorem gatherRequests_ok {requests : List Tree} {union after : List (List UInt8 × Tree)}
    (passed : requests.foldlM (gatherRequest toWriter) union = .ok after) :
    AllKeyed toWriter requests ∧ after = (requests.map (keyed toWriter)).foldl (fun entries entry => assign entry entries) union := by
  induction requests generalizing union with
  | nil =>
    cases passed
    exact ⟨nofun, rfl⟩
  | cons _ _ ih =>
    obtain ⟨_, first, passed⟩ := bind_ok passed
    obtain ⟨_, read, first⟩ := bind_ok first
    cases first
    obtain ⟨others, rfl⟩ := ih passed
    have known := requestKey_of_ok read
    refine ⟨forall_mem_cons.mpr ⟨read.trans (congrArg Except.ok known.symm), others⟩, ?_⟩
    rw [map_cons, foldl_cons, keyed, known]

def Gathered.absorb (toWriter : String → List UInt8) (gathered : Gathered) (action : PlanAction) : Gathered where
  nodes := assign (action.id, action.dependencies) gathered.nodes
  ordinals := assign (action.id, action.ordinal) gathered.ordinals
  actionIds := action.actionId :: gathered.actionIds
  union := (action.requests.map (keyed toWriter)).foldl (fun entries entry => assign entry entries) gathered.union

/-- What is checked of an action by itself. -/
structure PlanAction.Checks (toWriter : String → List UInt8) (action : PlanAction) (ordinal : Nat) (gathered : Gathered) : Prop where
  ordinal : action.ordinal = ordinal
  fresh : action.actionId ∉ gathered.actionIds
  keyed : AllKeyed toWriter action.requests

theorem gatherAction_ok {after : Gathered} {ordinal : Nat} {action : Tree}
    (passed : gatherAction toWriter gathered ordinal action = .ok after) :
    ∃ read, planAction? action = some read ∧ read.Checks toWriter ordinal gathered ∧ after = gathered.absorb toWriter read := by
  obtain ⟨_, isObject, passed⟩ := bind_ok passed
  rw [asObject_ok isObject]
  obtain ⟨given, readOrdinal, passed⟩ := bind_ok passed
  obtain ⟨_, counted, passed⟩ := bind_ok passed
  obtain ⟨id, readId, passed⟩ := bind_ok passed
  obtain ⟨actionId, readActionId, passed⟩ := bind_ok passed
  obtain ⟨_, fresh, passed⟩ := bind_ok passed
  obtain ⟨requests, readRequests, passed⟩ := bind_ok passed
  obtain ⟨_, _, passed⟩ := bind_ok passed
  obtain ⟨_, readOutcome, passed⟩ := bind_ok passed
  obtain ⟨outcomeClass, readClass, passed⟩ := bind_ok passed
  obtain ⟨_, _, passed⟩ := bind_ok passed
  obtain ⟨_, joined, passed⟩ := bind_ok passed
  obtain ⟨_, readDependencies, passed⟩ := bind_ok passed
  obtain ⟨_, _, passed⟩ := bind_ok passed
  obtain ⟨dependencies, texts, passed⟩ := bind_ok passed
  cases passed
  obtain ⟨keyed, rfl⟩ := gatherRequests_ok joined
  have sameOrdinal : given = ordinal := by simpa using refuse_ok counted
  have unused : actionId ∉ gathered.actionIds := by simpa using refuse_ok fresh
  refine ⟨⟨id, given, actionId, requests, dependencies, outcomeClass⟩, ?_, ⟨sameOrdinal, unused, keyed⟩, ?_⟩
  · simp [planAction?, requiredString_index readId, requiredU64_index readOrdinal, requiredString_index readActionId, requiredArray_index readRequests, requiredArray_index readDependencies, mapM_expect_ok texts, member_index readOutcome, readOutcomeClass_ok readClass]
  · rw [Gathered.absorb, sameOrdinal]

/-- The read actions and what was gathered from them. -/
structure Gathers (toWriter : String → List UInt8) (actions : List Tree) (ordinal : Nat) (gathered : Gathered)
    (reads : List PlanAction) (after : Gathered) : Prop where
  each : List.Forall₂ (fun action read => planAction? action = some read) actions reads
  ordinals : reads.map PlanAction.ordinal = List.range' ordinal reads.length
  distinct : (reads.map PlanAction.actionId).Nodup
  fresh : ∀ read ∈ reads, read.actionId ∉ gathered.actionIds
  keyed : ∀ read ∈ reads, AllKeyed toWriter read.requests
  gathered : after = reads.foldl (Gathered.absorb toWriter) gathered

theorem gatherActions_ok {after : Gathered} {ordinal : Nat}
    (passed : gatherActions toWriter ordinal actions gathered = .ok after) :
    ∃ reads, Gathers toWriter actions ordinal gathered reads after := by
  induction actions generalizing ordinal gathered with
  | nil =>
    cases passed
    exact ⟨[], .nil, rfl, nodup_nil, nofun, nofun, rfl⟩
  | cons _ _ ih =>
    obtain ⟨_, first, passed⟩ := bind_ok passed
    obtain ⟨read, isRead, checks, rfl⟩ := gatherAction_ok first
    obtain ⟨reads, others⟩ := ih passed
    refine ⟨read :: reads, .cons isRead others.each, ?_, ?_, ?_, ?_, others.gathered⟩
    · rw [map_cons, others.ordinals, checks.ordinal]
      rfl
    · refine nodup_cons.mpr ⟨fun repeated => ?_, others.distinct⟩
      obtain ⟨later, listed, same⟩ := mem_map.mp repeated
      exact others.fresh later listed (by rw [same]; exact mem_cons_self)
    · refine forall_mem_cons.mpr ⟨checks.fresh, fun later listed old => ?_⟩
      exact others.fresh later listed (mem_cons_of_mem _ old)
    · exact forall_mem_cons.mpr ⟨checks.keyed, others.keyed⟩

/-- Absorbing actions assigns the entries of each. -/
theorem absorb_foldl (reads : List PlanAction) (gathered : Gathered) :
    (reads.foldl (Gathered.absorb toWriter) gathered).nodes =
        (reads.map fun read => (read.id, read.dependencies)).foldl (fun entries entry => assign entry entries) gathered.nodes ∧
      (reads.foldl (Gathered.absorb toWriter) gathered).ordinals =
        (reads.map fun read => (read.id, read.ordinal)).foldl (fun entries entry => assign entry entries) gathered.ordinals ∧
      (reads.foldl (Gathered.absorb toWriter) gathered).union =
        ((reads.flatMap PlanAction.requests).map (keyed toWriter)).foldl (fun entries entry => assign entry entries) gathered.union := by
  induction reads generalizing gathered with
  | nil => exact ⟨rfl, rfl, rfl⟩
  | cons read _ ih =>
    obtain ⟨nodes, ordinals, union⟩ := ih (gathered.absorb toWriter read)
    refine ⟨nodes, ordinals, union.trans ?_⟩
    rw [flatMap_cons, map_append, foldl_append]
    rfl

/-- Entries that are assigned to none, each under a key of its own. -/
theorem assign_all {ν : Type} {entries : List (String × ν)} (unique : (entries.map Prod.fst).Nodup) :
    entries.foldl (fun entries entry => assign entry entries) [] = entries := by
  have none : (([] : List (String × ν)).map Prod.fst).Nodup := nodup_nil
  rw [foldl_assign none unique, map_nil, nil_append, filter_eq_self]
  intro entry _
  simp

/-- An entry made from the first action of an id. -/
theorem lookup_actions {ν : Type} (value : PlanAction → ν) (actions : List PlanAction) (id : String) :
    (actions.map fun action => (action.id, value action)).lookup id =
      (actions.find? fun action => action.id == id).map value := by
  induction actions with
  | nil => rfl
  | cons action _ ih =>
    rw [map_cons, List.find?_cons]
    by_cases same : action.id = id
    · rw [same, lookup_cons, beq_self_eq_true]
      rfl
    · rw [lookup_cons_ne fun equal => same equal.symm, beq_false_of_ne same]
      exact ih

theorem nextNodes_actions (plan : Plan) :
    nextNodes (plan.actions.map fun action => (action.id, action.dependencies))
      (plan.actions.map fun action => (action.id, action.ordinal)) = plan.orderedDependencies := by
  have known : ∀ id, ((plan.actions.map fun action => (action.id, action.ordinal)).lookup id).getD 0 = plan.ordinalOf id := by
    intro id
    rw [lookup_actions, Plan.ordinalOf]
    cases plan.actions.find? fun action => action.id == id <;> rfl
  funext id
  have dependencies : ((plan.actions.map fun action => (action.id, action.dependencies)).lookup id).getD [] =
      plan.dependenciesOf id := by
    rw [lookup_actions, Plan.dependenciesOf]
    cases plan.actions.find? fun action => action.id == id <;> rfl
  rw [nextNodes, dependencies]
  simp [byOrdinal, known, Plan.orderedDependencies]

theorem mapM_of_forall₂ (each : List.Forall₂ (fun action read => planAction? action = some read) actions reads) :
    actions.mapM planAction? = some reads := by
  induction each with
  | nil => rfl
  | cons isRead _ ih =>
    rw [mapM_cons, isRead, ih]
    rfl

/-- What reading an action reads. -/
theorem planAction?_some {action : Tree} {read : PlanAction} (isRead : planAction? action = some read) :
    (action.index "id").asStr = some read.id ∧ ((action.index "outcome").index "class").asStr = some read.outcomeClass := by
  simp only [planAction?, Option.bind_eq_bind, Option.bind_eq_some_iff, Option.pure_def, Option.some.injEq] at isRead
  obtain ⟨_, readId, _, _, _, _, _, _, _, _, _, _, _, readClass, rfl⟩ := isRead
  exact ⟨readId, readClass⟩

theorem declared_ids {declared : List String}
    (each : List.Forall₂ (fun action read => planAction? action = some read) actions reads)
    (passed : (actions.mapM fun action => do requiredString (← asObject action "action node") "id") = .ok declared) :
    declared = reads.map PlanAction.id := by
  induction each generalizing declared with
  | nil =>
    cases passed
    rfl
  | @cons _ _ _ _ isRead _ ih =>
    rw [mapM_cons] at passed
    obtain ⟨_, first, passed⟩ := bind_ok passed
    obtain ⟨_, rest, passed⟩ := bind_ok passed
    cases passed
    obtain ⟨_, isObject, readId⟩ := bind_ok first
    have known := (planAction?_some isRead).1
    rw [asObject_ok isObject, requiredString_index readId, Option.some.injEq] at known
    rw [ih rest, map_cons, known]

theorem all_success (each : List.Forall₂ (fun action read => planAction? action = some read) actions reads) :
    (actions.all fun action => ((action.index "outcome").index "class").asStr == some "success") = true ↔
      ∀ read ∈ reads, read.outcomeClass = "success" := by
  induction each with
  | nil => simp
  | cons isRead _ ih =>
    rw [all_cons, Bool.and_eq_true, ih, forall_mem_cons, (planAction?_some isRead).2, beq_iff_eq, Option.some.injEq]

end Gathering

/-! ## What is accepted -/

section Accepted

variable {toWriter : String → List UInt8} {object : Members}

/-- What the validation has read and found when it accepts. -/
structure Accepted (toWriter : String → List UInt8) (object : Members) (plan : Plan) (root : String) (gathered : Gathered) : Prop where
  isPlan : plan? object = some plan
  first : plan.ids.head? = some root
  gathers : ∃ actions, Gathers toWriter actions 0 .empty plan.actions gathered
  resolved : unresolved gathered.nodes = false
  traversed : Traversed gathered.nodes gathered.ordinals maxDependencyDepth root plan.ids
  requests : plan.requests = intoValues gathered.union
  outcome : plan.outcomeClass = "success" ↔ (∀ request ∈ plan.requests, isGranted request = true) ∧
    (∀ action ∈ plan.actions, action.outcomeClass = "success") ∧ plan.secrets.length ≤ 1

theorem requiredObject_index {name : String} {inner : Members} (passed : requiredObject object name = .ok inner) :
    index (.object object) name = .object inner := by
  obtain ⟨_, found, isObject⟩ := bind_ok passed
  rw [required_index found, asObject_ok isObject]

variable {actions : List Tree} {reads : List PlanAction}

theorem isExecutable_iff {requests : List Tree} {executable : Bool}
    (each : List.Forall₂ (fun action read => planAction? action = some read) actions reads)
    (passed : isExecutable object requests actions = .ok executable) :
    executable = true ↔ (∀ request ∈ requests, isGranted request = true) ∧ (∀ read ∈ reads, read.outcomeClass = "success") ∧
      ((index (.object object) "secrets").asArray.getD []).length ≤ 1 := by
  rw [← all_success each, ← all_eq_true, ← and_assoc, ← Bool.and_eq_true]
  unfold isExecutable at passed
  split at passed
  · next succeed =>
    obtain ⟨_, read, passed⟩ := bind_ok passed
    cases passed
    rw [requiredArray_index read, Option.getD_some, decide_eq_true_iff]
    exact ⟨fun few => ⟨succeed, few⟩, And.right⟩
  · next fail =>
    cases passed
    exact ⟨nofun, fun both => absurd both.1 fail⟩

/-- The first action that is read is the first that is listed. -/
theorem first_id {root : Members} {rootId : String}
    (each : List.Forall₂ (fun action read => planAction? action = some read) actions reads) (filled : actions.isEmpty = false)
    (isRoot : (actions.headD .null).asObject = some root) (readRoot : requiredString root "id" = .ok rootId) :
    (reads.map PlanAction.id).head? = some rootId := by
  cases each with
  | nil => cases filled
  | @cons action _ _ _ isRead =>
    have isRoot : action.asObject = some root := isRoot
    have known := (planAction?_some isRead).1
    rw [eq_object isRoot, requiredString_index readRoot] at known
    exact known.symm

theorem validatePlanActions_ok (passed : validatePlanActions toWriter object = .ok ()) :
    ∃ plan root gathered, Accepted toWriter object plan root gathered := by
  obtain ⟨actions, readActions, passed⟩ := bind_ok passed
  obtain ⟨_, filled, passed⟩ := bind_ok passed
  obtain ⟨_, _, passed⟩ := bind_ok passed
  obtain ⟨_, readAuthority, passed⟩ := bind_ok passed
  obtain ⟨gathered, gathers, passed⟩ := bind_ok passed
  obtain ⟨_, isRoot, passed⟩ := bind_ok passed
  obtain ⟨_, _, passed⟩ := bind_ok passed
  obtain ⟨_, _, passed⟩ := bind_ok passed
  obtain ⟨_, resolved, passed⟩ := bind_ok passed
  obtain ⟨rootId, readRoot, passed⟩ := bind_ok passed
  obtain ⟨visit, visited, passed⟩ := bind_ok passed
  obtain ⟨_, _, passed⟩ := bind_ok passed
  obtain ⟨declared, readDeclared, passed⟩ := bind_ok passed
  obtain ⟨_, ordered, passed⟩ := bind_ok passed
  obtain ⟨requests, readRequests, passed⟩ := bind_ok passed
  obtain ⟨_, joined, passed⟩ := bind_ok passed
  obtain ⟨_, succeeds, passed⟩ := bind_ok passed
  obtain ⟨_, readOutcome, passed⟩ := bind_ok passed
  obtain ⟨outcomeClass, readClass, agrees⟩ := bind_ok passed
  obtain ⟨reads, gathers⟩ := gatherActions_ok gathers
  have ids := declared_ids gathers.each readDeclared
  have listed : visit.traversal = declared := by simpa using refuse_ok ordered
  have union : requests = intoValues gathered.union := by simpa using refuse_ok joined
  let plan : Plan := ⟨reads, requests, ((index (.object object) "secrets").asArray).getD [], outcomeClass⟩
  refine ⟨plan, rootId, gathered, ?_, ?_, ⟨actions, gathers⟩, refuse_ok resolved, ?_, union, ?_⟩
  · simp [plan?, requiredArray_index readActions, mapM_of_forall₂ gathers.each, requiredObject_index readAuthority, requiredArray_index readRequests, member_index readOutcome, readOutcomeClass_ok readClass, plan]
  · exact first_id gathers.each (refuse_ok filled) (expect_ok isRoot) readRoot
  · have traversed := visitActionGraph_traversed visited
    rw [listed, ids] at traversed
    exact traversed
  · exact (disagrees_iff (refuse_ok agrees)).trans (isExecutable_iff gathers.each succeeds)

section Facts

variable {plan : Plan} {root : String} {gathered : Gathered} (accepted : Accepted toWriter object plan root gathered)
include accepted

theorem Accepted.ids : plan.ids.Nodup := accepted.traversed.preorder.nodup.1

theorem Accepted.nodes : gathered.nodes = plan.actions.map (fun action => (action.id, action.dependencies)) ∧
    gathered.ordinals = plan.actions.map fun action => (action.id, action.ordinal) := by
  obtain ⟨actions, gathers⟩ := accepted.gathers
  obtain ⟨nodes, ordinals, _⟩ := absorb_foldl plan.actions .empty
  have unique := accepted.ids
  constructor
  · rw [gathers.gathered, nodes]
    exact assign_all (by rw [map_map]; exact unique)
  · rw [gathers.gathered, ordinals]
    exact assign_all (by rw [map_map]; exact unique)

theorem Accepted.traverses : Traversed gathered.nodes gathered.ordinals maxDependencyDepth root plan.ids ∧
    nextNodes gathered.nodes gathered.ordinals = plan.orderedDependencies := by
  refine ⟨accepted.traversed, ?_⟩
  rw [accepted.nodes.1, accepted.nodes.2]
  exact nextNodes_actions plan

variable {id dependency : String}

omit accepted in
theorem mem_orderedDependencies :
    dependency ∈ plan.orderedDependencies id ↔ dependency ∈ plan.dependenciesOf id :=
  mem_insertionSort _

omit accepted in
theorem dependenciesOf_mem (listed : dependency ∈ plan.dependenciesOf id) :
    ∃ action ∈ plan.actions, action.id = id ∧ dependency ∈ action.dependencies := by
  unfold Plan.dependenciesOf at listed
  cases found : plan.actions.find? fun action => action.id == id with
  | none =>
    rw [found] at listed
    cases listed
  | some action =>
    rw [found] at listed
    exact ⟨action, mem_of_find?_eq_some found, by simpa using List.find?_some found, listed⟩

theorem Accepted.acyclic {path : List String} (cycle : Path plan.dependenciesOf id path id) : path = [] := by
  cases path with
  | nil => rfl
  | cons =>
    have leaves : id ∈ plan.ids := by
      cases cycle with
      | step listed =>
        obtain ⟨_, among, rfl, _⟩ := dependenciesOf_mem listed
        exact mem_map_of_mem among
    obtain ⟨traversed, next⟩ := accepted.traverses
    have ends := traversed.ends id leaves
    rw [next] at ends
    exact Path.ends_of_acc ends (Path.congr (fun _ _ listed => mem_orderedDependencies.mpr listed) cycle)

theorem Accepted.shallow : plan.Shallow root := by
  intro id listed
  obtain ⟨traversed, next⟩ := accepted.traverses
  obtain ⟨path, branch, short⟩ := traversed.branches id listed
  rw [next] at branch
  exact ⟨path, Path.congr (fun _ _ listed => mem_orderedDependencies.mp listed) branch, short⟩

theorem Accepted.closed : plan.Closed root where
  first := accepted.first
  ordinals := by
    obtain ⟨actions, gathers⟩ := accepted.gathers
    rw [gathers.ordinals, range_eq_range']
  actionIds := by
    obtain ⟨actions, gathers⟩ := accepted.gathers
    exact gathers.distinct
  ids := accepted.ids
  present := by
    intro action listed dependency depends
    have resolved := accepted.resolved
    rw [accepted.nodes.1, unresolved, any_eq_false] at resolved
    have known := resolved (action.id, action.dependencies) (mem_map_of_mem listed)
    rw [Bool.not_eq_true, any_eq_false] at known
    have found := known dependency depends
    by_contra absent
    have missing : (plan.actions.map fun action => (action.id, action.dependencies)).lookup dependency = none := by
      refine lookup_absent ?_
      rw [map_map]
      exact absent
    rw [missing] at found
    simp at found
  acyclic := fun _ _ => accepted.acyclic
  reachable := by
    intro id listed
    obtain ⟨path, branch, _⟩ := accepted.shallow id listed
    exact ⟨path, branch⟩
  preorder := by
    obtain ⟨traversed, next⟩ := accepted.traverses
    rw [← next]
    exact traversed.preorder
  outcome := accepted.outcome

end Facts

/-! ## The requests of a plan -/

theorem keyLt_of_unordered {left right : List UInt8} (unordered : ¬ KeyLt right left) (different : left ≠ right) : KeyLt left right := by
  refine lt_of_le_of_ne (not_lt.mp unordered) fun same => different ?_
  exact map_injective_iff.mpr (fun _ _ => UInt8.toNat_inj.mp) same

/-- The values of a map, in the order of their different keys. -/
theorem intoValues_sorted {union : List (List UInt8 × Tree)} (unique : (union.map Prod.fst).Nodup) :
    ∃ sorted : List (List UInt8 × Tree), intoValues union = sorted.map Prod.snd ∧ sorted.Perm union ∧
      sorted.Pairwise fun first second => KeyLt first.1 second.1 := by
  let before : List UInt8 × Tree → List UInt8 × Tree → Prop := fun first second => ¬ KeyLt second.1 first.1
  have total : Std.Total before := ⟨fun first second => by
    rcases le_total (first.1.map UInt8.toNat) (second.1.map UInt8.toNat) with less | more
    · exact .inl (not_lt.mpr less)
    · exact .inr (not_lt.mpr more)⟩
  have transitive : IsTrans _ before := ⟨fun _ _ _ one two => not_lt.mpr ((not_lt.mp one).trans (not_lt.mp two))⟩
  have permuted := perm_insertionSort before union
  refine ⟨union.insertionSort before, rfl, permuted, ?_⟩
  have distinct : (union.insertionSort before).Pairwise fun first second => first.1 ≠ second.1 :=
    pairwise_map.mp ((permuted.map Prod.fst).nodup_iff.mpr unique)
  refine (pairwise_insertionSort before union).imp₂ ?_ distinct
  exact fun _ _ => keyLt_of_unordered

section Requests

variable {plan : Plan} {root : String} {gathered : Gathered} (accepted : Accepted toWriter object plan root gathered)
include accepted

variable {action : PlanAction} {request : Tree}

theorem Accepted.reads_key (among : action ∈ plan.actions) (listed : request ∈ action.requests) :
    authorityKey toWriter request = .ok (requestKey toWriter request) := by
  obtain ⟨_, gathers⟩ := accepted.gathers
  exact gathers.keyed action among request listed

/-- The gathered union has a request of the actions under the key of every request. -/
theorem Accepted.union : (gathered.union.map Prod.fst).Nodup ∧
    (∀ entry ∈ gathered.union, entry.1 = requestKey toWriter entry.2 ∧ ∃ action ∈ plan.actions, entry.2 ∈ action.requests) ∧
      ∀ action ∈ plan.actions, ∀ request ∈ action.requests, requestKey toWriter request ∈ gathered.union.map Prod.fst := by
  obtain ⟨actions, gathers⟩ := accepted.gathers
  obtain ⟨_, _, union⟩ := absorb_foldl plan.actions .empty
  have whole : gathered.union = ((plan.actions.flatMap PlanAction.requests).map (keyed toWriter)).foldl
      (fun entries entry => assign entry entries) [] := by
    rw [gathers.gathered, union]
    rfl
  rw [whole]
  refine ⟨nodup_foldl_assign nodup_nil, forall_foldl_assign nofun ?_, ?_⟩
  · intro entry listed
    obtain ⟨request, among, rfl⟩ := mem_map.mp listed
    exact ⟨rfl, mem_flatMap.mp among⟩
  · intro action among request listed
    refine mem_keys_foldl_assign.mpr (.inr (mem_map_of_mem (mem_map.mpr ⟨request, ?_, rfl⟩)))
    exact mem_flatMap.mpr ⟨action, among, listed⟩

theorem Accepted.requests_from (listed : request ∈ plan.requests) :
    ∃ action ∈ plan.actions, request ∈ action.requests := by
  obtain ⟨unique, from_, _⟩ := accepted.union
  obtain ⟨_, same, permuted, _⟩ := intoValues_sorted unique
  rw [accepted.requests, same] at listed
  obtain ⟨entry, among, rfl⟩ := mem_map.mp listed
  exact (from_ entry (permuted.mem_iff.mp among)).2

theorem Accepted.requests_ordered : plan.requests.Pairwise (Plan.KeyBefore toWriter) := by
  obtain ⟨unique, from_, _⟩ := accepted.union
  obtain ⟨_, same, permuted, ordered⟩ := intoValues_sorted unique
  rw [accepted.requests, same, pairwise_map]
  refine ordered.imp_of_mem ?_
  intro first second among among' before
  obtain ⟨isKey, _, listed, requests⟩ := from_ first (permuted.mem_iff.mp among)
  obtain ⟨isKey', _, listed', requests'⟩ := from_ second (permuted.mem_iff.mp among')
  refine ⟨first.1, second.1, ?_, ?_, before⟩
  · rw [isKey]
    exact accepted.reads_key listed requests
  · rw [isKey']
    exact accepted.reads_key listed' requests'

/-- Under every key that the actions ask for stands one of their requests. -/
theorem Accepted.requests_cover (among : action ∈ plan.actions) (listed : request ∈ action.requests) :
    ∃ other ∈ plan.requests, authorityKey toWriter other = authorityKey toWriter request := by
  obtain ⟨unique, from_, covers⟩ := accepted.union
  obtain ⟨_, same, permuted, _⟩ := intoValues_sorted unique
  obtain ⟨entry, held, isKey⟩ := mem_map.mp (covers action among request listed)
  obtain ⟨known, _, among', listed'⟩ := from_ entry held
  refine ⟨entry.2, ?_, ?_⟩
  · rw [accepted.requests, same]
    exact mem_map_of_mem (permuted.mem_iff.mpr held)
  · rw [accepted.reads_key among' listed', ← known, isKey, accepted.reads_key among listed]

theorem Accepted.joins_iff : plan.Joins toWriter ↔ plan.RequestsAgree toWriter := by
  constructor
  · intro joins action among action' among' request listed request' listed' same
    have here := (joins.union request).mpr ⟨action, among, listed⟩
    have there := (joins.union request').mpr ⟨action', among', listed'⟩
    by_contra different
    have apart : plan.requests.Pairwise fun first second => authorityKey toWriter first ≠ authorityKey toWriter second := by
      refine joins.ordered.imp ?_
      rintro first second ⟨_, _, read, read', before⟩ equal
      rw [read, read'] at equal
      cases equal
      exact lt_irrefl _ before
    have symmetric : Std.Symm fun first second => authorityKey toWriter first ≠ authorityKey toWriter second :=
      ⟨fun _ _ => Ne.symm⟩
    exact apart.forall here there different same
  · intro agree
    refine ⟨accepted.requests_ordered, fun request => ⟨accepted.requests_from, ?_⟩⟩
    rintro ⟨action, among, listed⟩
    obtain ⟨other, held, same⟩ := accepted.requests_cover among listed
    obtain ⟨action', among', listed'⟩ := accepted.requests_from held
    rw [← agree action' among' action among other listed' request listed same]
    exact held

end Requests

end Accepted

/-! ## Sample plans -/

def sampleDigits (width number : Nat) : List Char :=
  ((List.replicate width '0' ++ Nat.toDigits 10 number).reverse.take width).reverse

/-- A contract digest that begins with a number. -/
def sampleDigest (number : Nat) : List Char :=
  's' :: 'h' :: 'a' :: '2' :: '5' :: '6' :: ':' :: (sampleDigits 2 number ++ List.replicate 62 '0')

/-- A string by its bytes, which evaluates one byte at a time. -/
def spelled (characters : List Char) : String :=
  .ofByteArray ⟨⟨characters.flatMap String.utf8EncodeChar⟩⟩ ⟨characters, ByteArray.ext (by simp [List.utf8Encode])⟩

def sampleId (number : Nat) : String := spelled (sampleDigest number ++ '#' :: sampleDigits 6 number)

def sampleActionId (number : Nat) : Tree := .string (spelled ('a' :: sampleDigits 2 number))

def sampleOutcome : Tree := .object [("class", .string "success"), ("code", .string "ok"), ("message", .string ""),
  ("partial", .bool false), ("status", .null), ("value_digest", .null)]

def sampleAction (number : Nat) (dependencies : List Nat) (requests : List Tree) : Tree := .object [
  ("action_id", sampleActionId number),
  ("contract_digest", .string (spelled (sampleDigest number))),
  ("dependencies", .array (dependencies.map fun dependency => .string (sampleId dependency))),
  ("id", .string (sampleId number)),
  ("ordinal", Tree.ofNat (number % 1000000) (by omega)),
  ("outcome", sampleOutcome),
  ("requests", .array requests)]

/-- The checked parts of a plan that succeeds and names no secret. -/
def samplePlan (actions requests : List Tree) : Members := [
  ("actions", .array actions),
  ("authority", .object [("requests", .array requests)]),
  ("outcome", sampleOutcome),
  ("secrets", .array []),
  ("task", .object [("action_id", sampleActionId 0), ("contract_digest", .string (spelled (sampleDigest 0)))])]

/-- Strings between quotes; those of the samples have nothing to escape. -/
def quoted (text : String) : List UInt8 := Text.bytes ('"' :: text.toList ++ ['"'])

def toolRequest (verdict : String) : Tree := .object [("effect", .string "process.run"),
  ("scope", .object [("kind", .string "tool"), ("tool", .string "cc")]), ("verdict", .string verdict)]

/-- Two actions whose requests differ in the verdict only. -/
def splitVerdicts : Members :=
  samplePlan [sampleAction 0 [1] [toolRequest "granted-enforced"], sampleAction 1 [] [toolRequest "granted-unenforced"]]
    [toolRequest "granted-unenforced"]

theorem splitVerdicts_accepted : validatePlanActions quoted splitVerdicts = .ok () := by decide +kernel

/-- Accepted actions are the closure of the first one in depth-first order, and the requests are their
union exactly when requests of one authority agree; the walk ends on every map. -/
theorem validatePlanActions_exact (toWriter : String → List UInt8) :
    (∀ object, validatePlanActions toWriter object = .ok () →
      ∃ plan root, plan? object = some plan ∧ plan.Closed root ∧ (plan.Joins toWriter ↔ plan.RequestsAgree toWriter)) ∧
    ∀ nodes ordinals root,
      Settled (¬ (Resolves nodes ∧ (nodes.lookup root).isSome)) (visitActionGraph nodes ordinals maxDependencyDepth root .start) := by
  refine ⟨fun object passed => ?_, fun nodes ordinals root => visitActionGraph_settled nodes ordinals _ root _⟩
  obtain ⟨plan, root, _, accepted⟩ := validatePlanActions_ok passed
  exact ⟨plan, root, accepted.isPlan, accepted.closed, accepted.joins_iff⟩

theorem splitVerdicts_exact : ∃ plan root, plan? splitVerdicts = some plan ∧ plan.Closed root ∧
    (plan.Joins quoted ↔ plan.RequestsAgree quoted) :=
  (validatePlanActions_exact quoted).1 splitVerdicts splitVerdicts_accepted

/-- The verdict that the first action was given is not among the requests of the plan. -/
theorem splitVerdicts_not_joined : ¬ ∀ object, validatePlanActions quoted object = .ok () →
    ∃ plan root, plan? object = some plan ∧ plan.Closed root ∧ plan.Joins quoted := by
  intro exact
  obtain ⟨plan, _, isPlan, _, joins⟩ := exact splitVerdicts splitVerdicts_accepted
  have lists : (plan? splitVerdicts).all (fun plan =>
      (plan.actions.any fun action => action.requests.contains (toolRequest "granted-enforced")) &&
        !plan.requests.contains (toolRequest "granted-enforced")) = true := by decide +kernel
  rw [isPlan, Option.all_some, Bool.and_eq_true, any_eq_true, Bool.not_eq_true'] at lists
  obtain ⟨⟨action, among, listed⟩, missing⟩ := lists
  have held := (joins.union (toolRequest "granted-enforced")).mpr ⟨action, among, by simpa using listed⟩
  rw [contains_iff_mem.mpr held] at missing
  cases missing

end Opaal.Workflow
