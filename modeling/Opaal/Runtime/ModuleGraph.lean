import Opaal.Graph.Search
import Opaal.Runtime.Value
import Opaal.Syntax.Source

/-!
# The module import graph

Imports are added one at a time; an edge that would close a cycle is rejected together with
the path that it closes.  Canonical module identities are only ever compared, so any type with
decidable equality stands for them.
-/

namespace Opaal.Runtime

open Opaal.Graph List

/-- One explicit import after its requested path was resolved. -/
structure ModuleImport (Module : Type) where
  importer : Module
  requested : NativePath
  target : Module
  span : Syntax.Span
deriving DecidableEq

/-- Accepted imports in insertion order, and for every module the positions of its own. -/
structure ModuleGraph (Module : Type) where
  root : Module
  modules : List Module
  imports : List (ModuleImport Module)
  outgoing : Module → List Nat
  indexed : ∀ module, ∀ index ∈ outgoing module, index < imports.length

/-- Why an import is rejected.  `unbounded` stands for a path search that does not end. -/
inductive ModuleGraphError (Module : Type) where
  | unknownImporter (importer : Module)
  | cycle (imports : List (ModuleImport Module))
  | unbounded
deriving DecidableEq

variable {Module : Type} [DecidableEq Module]

namespace ModuleGraph

def new (root : Module) : ModuleGraph Module where
  root := root
  modules := [root]
  imports := []
  outgoing _ := []
  indexed _ _ member := by contradiction

omit [DecidableEq Module] in
/-- The imports of one module in order. -/
def edges (graph : ModuleGraph Module) (module : Module) : List (ModuleImport Module) :=
  (graph.outgoing module).attach.map fun position =>
    graph.imports.get ⟨position.val, graph.indexed module position.val position.property⟩

def pathBetween (graph : ModuleGraph Module) (start target : Module) : Search (ModuleImport Module) :=
  (search graph.edges ModuleImport.target target (graph.modules.length + 2) start []).1

/-- The graph with one more edge. -/
def insertImport (graph : ModuleGraph Module) (edge : ModuleImport Module) : ModuleGraph Module where
  root := graph.root
  modules := graph.modules.insert edge.target
  imports := graph.imports ++ [edge]
  outgoing module :=
    if module = edge.importer then graph.outgoing module ++ [graph.imports.length] else graph.outgoing module
  indexed module index member := by
    rw [length_append, length_singleton]
    split at member
    · rcases mem_append.mp member with old | fresh
      · exact Nat.lt_succ_of_lt (graph.indexed module index old)
      · rw [mem_singleton.mp fresh]
        exact Nat.lt_succ_self _
    · exact Nat.lt_succ_of_lt (graph.indexed module index member)

/-- The outcome and the graph afterwards. -/
def addImport (graph : ModuleGraph Module) (edge : ModuleImport Module) :
    Except (ModuleGraphError Module) Unit × ModuleGraph Module :=
  if edge.importer ∉ graph.modules then (.error (.unknownImporter edge.importer), graph)
  else
    match graph.pathBetween edge.target edge.importer with
    | .found path => (.error (.cycle (edge :: path)), graph)
    | .missing => (.ok (), graph.insertImport edge)
    | .unbounded => (.error .unbounded, graph)

/-- The graph after a sequence of imports, some of which may have been rejected. -/
def addImports (graph : ModuleGraph Module) (imports : List (ModuleImport Module)) : ModuleGraph Module :=
  imports.foldl (fun graph edge => (graph.addImport edge).2) graph

/-! ## Paths of imports -/

/-- Accepted imports that follow each other from one module to another. -/
inductive ImportPath (imports : List (ModuleImport Module)) : Module → List (ModuleImport Module) → Module → Prop where
  | here (module : Module) : ImportPath imports module [] module
  | step {edge : ModuleImport Module} {path : List (ModuleImport Module)} {last : Module} (member : edge ∈ imports)
      (rest : ImportPath imports edge.target path last) : ImportPath imports edge.importer (edge :: path) last

/-- No module imports itself, directly or through others. -/
def Acyclic (graph : ModuleGraph Module) : Prop :=
  ∀ module path, ImportPath graph.imports module path module → path = []

/-- The graph leads from the target of an import back to its importer. -/
def Closes (graph : ModuleGraph Module) (edge : ModuleImport Module) : Prop :=
  edge.target ∈ graph.modules ∧ ∃ path, ImportPath graph.imports edge.target path edge.importer

/-- The positions list exactly the imports of their module, and both ends of an import are modules
of the graph. -/
structure Linked (graph : ModuleGraph Module) : Prop where
  edges : ∀ module, graph.edges module = graph.imports.filter (·.importer = module)
  importers : ∀ edge ∈ graph.imports, edge.importer ∈ graph.modules
  targets : ∀ edge ∈ graph.imports, edge.target ∈ graph.modules

omit [DecidableEq Module] in
theorem edges_eq_filterMap (graph : ModuleGraph Module) (module : Module) :
    graph.edges module = (graph.outgoing module).filterMap (graph.imports[·]?) := by
  have listed : (graph.outgoing module).filterMap (graph.imports[·]?) =
      (graph.outgoing module).attach.filterMap fun position => graph.imports[position.val]? := by
    conv_lhs => rw [← attach_map_subtype_val (graph.outgoing module), filterMap_map]
    rfl
  rw [listed]
  unfold edges
  rw [← filterMap_eq_map]
  apply filterMap_congr
  intro position _
  have inside := graph.indexed module position.val position.property
  simp [List.getElem?_eq_getElem inside]

theorem edges_insertImport (graph : ModuleGraph Module) (edge : ModuleImport Module) (module : Module) :
    (graph.insertImport edge).edges module =
      graph.edges module ++ if module = edge.importer then [edge] else [] := by
  rw [edges_eq_filterMap, edges_eq_filterMap]
  have old : (graph.outgoing module).filterMap ((graph.imports ++ [edge])[·]?) =
      (graph.outgoing module).filterMap (graph.imports[·]?) := by
    apply filterMap_congr
    intro index member
    exact List.getElem?_append_left (graph.indexed module index member)
  show (if module = edge.importer then graph.outgoing module ++ [graph.imports.length] else graph.outgoing module).filterMap
    ((graph.imports ++ [edge])[·]?) = _
  by_cases same : module = edge.importer
  · rw [if_pos same, if_pos same, filterMap_append, old]
    simp
  · rw [if_neg same, if_neg same, old, append_nil]

theorem linked_new (root : Module) : (new root).Linked := by
  refine ⟨fun module => rfl, ?_, ?_⟩
  all_goals
    intro edge member
    contradiction

theorem linked_insertImport {graph : ModuleGraph Module} (linked : graph.Linked) {edge : ModuleImport Module}
    (known : edge.importer ∈ graph.modules) : (graph.insertImport edge).Linked := by
  have insertion : ∀ module ∈ graph.modules, module ∈ graph.modules.insert edge.target := fun module member =>
    mem_insert_of_mem member
  refine ⟨?_, ?_, ?_⟩
  · intro module
    show (graph.insertImport edge).edges module = (graph.imports ++ [edge]).filter (·.importer = module)
    rw [edges_insertImport, linked.edges, filter_append]
    by_cases same : module = edge.importer
    · simp [same]
    · simp [same, Ne.symm same]
  · intro other member
    rcases mem_append.mp member with old | fresh
    · exact insertion _ (linked.importers other old)
    · rw [mem_singleton.mp fresh]
      exact insertion _ known
  · intro other member
    rcases mem_append.mp member with old | fresh
    · exact insertion _ (linked.targets other old)
    · rw [mem_singleton.mp fresh]
      exact mem_insert_self

/-! ## The search follows imports -/

section Linked

variable {graph : ModuleGraph Module} {edge : ModuleImport Module}

theorem leads_iff (linked : graph.Linked) {start last : Module} {path : List (ModuleImport Module)} :
    Leads graph.edges ModuleImport.target start path last ↔ ImportPath graph.imports start path last := by
  constructor
  · intro leads
    induction leads with
    | here module => exact .here module
    | step first _ ih =>
      rw [linked.edges, mem_filter, decide_eq_true_eq] at first
      obtain ⟨member, rfl⟩ := first
      exact .step member ih
  · intro path
    induction path with
    | here module => exact .here module
    | step member _ ih =>
      refine .step ?_ ih
      rw [linked.edges, mem_filter, decide_eq_true_eq]
      exact ⟨member, rfl⟩

/-- The search ends: it enters at most the modules of the graph and where it starts. -/
theorem pathBetween_ends (linked : graph.Linked) (start target : Module) : graph.pathBetween start target ≠ .unbounded := by
  have inside : ∀ module, ∀ edge ∈ graph.edges module, edge.target ∈ start :: graph.modules := by
    intro module edge member
    rw [linked.edges] at member
    exact mem_cons_of_mem start (linked.targets edge (mem_of_mem_filter member))
  have room : (unentered (start :: graph.modules) []).length < graph.modules.length + 2 := by
    have bound := length_filter_le (fun module => decide (module ∉ ([] : List Module))) (start :: graph.modules)
    exact Nat.lt_succ_of_le bound
  exact search_ends inside _ start [] mem_cons_self room

/-- A path is found exactly when there is one, and what is found is one. -/
theorem pathBetween_spec (linked : graph.Linked) (start target : Module) :
    (∃ path, graph.pathBetween start target = .found path ∧ ImportPath graph.imports start path target) ∨
      (graph.pathBetween start target = .missing ∧ ∀ path, ¬ImportPath graph.imports start path target) := by
  have ends := pathBetween_ends linked start target
  unfold pathBetween at *
  cases ran : search graph.edges ModuleImport.target target (graph.modules.length + 2) start [] with
  | mk outcome =>
    rw [ran] at ends
    cases outcome with
    | found path => exact .inl ⟨path, rfl, (leads_iff linked).mp (search_found ran)⟩
    | missing => exact .inr ⟨rfl, fun path leads => not_leads_of_missing ran ((leads_iff linked).mpr leads)⟩
    | unbounded => exact absurd rfl ends

omit [DecidableEq Module] in
theorem ImportPath.append {imports : List (ModuleImport Module)} {first middle last : Module}
    {front back : List (ModuleImport Module)} (one : ImportPath imports first front middle)
    (two : ImportPath imports middle back last) : ImportPath imports first (front ++ back) last := by
  induction one with
  | here => exact two
  | step member _ ih => exact .step member (ih two)

/-! ## One more edge -/

omit [DecidableEq Module] in
/-- A path that may use the new edge avoids it, or has an old path before its first use and one
after its last. -/
theorem path_with_edge {imports : List (ModuleImport Module)} {first last : Module} {path : List (ModuleImport Module)}
    (wide : ImportPath (imports ++ [edge]) first path last) : ImportPath imports first path last ∨
      (∃ front, ImportPath imports first front edge.importer) ∧ ∃ back, ImportPath imports edge.target back last := by
  induction wide with
  | here module => exact .inl (.here module)
  | step member _ ih =>
    rcases mem_append.mp member with old | fresh
    · rcases ih with avoids | ⟨⟨front, before⟩, after⟩
      · exact .inl (.step old avoids)
      · exact .inr ⟨⟨_ :: front, .step old before⟩, after⟩
    · cases mem_singleton.mp fresh
      rcases ih with avoids | ⟨_, after⟩
      · exact .inr ⟨⟨[], .here _⟩, _, avoids⟩
      · exact .inr ⟨⟨[], .here _⟩, after⟩

theorem acyclic_insertImport (acyclic : graph.Acyclic)
    (open' : ∀ path, ¬ImportPath graph.imports edge.target path edge.importer) : (graph.insertImport edge).Acyclic := by
  intro module path cycle
  rcases path_with_edge cycle with old | ⟨⟨front, before⟩, back, after⟩
  · exact acyclic module path old
  · exact absurd (after.append before) (open' (back ++ front))

/-! ## Adding imports -/

/-- What one import does to a graph: everything the outcome says. -/
structure Contract (graph : ModuleGraph Module) (edge : ModuleImport Module) : Prop where
  unknown : ∀ importer, (graph.addImport edge).1 = .error (.unknownImporter importer) ↔
    importer = edge.importer ∧ edge.importer ∉ graph.modules
  cycle : (∃ edges, (graph.addImport edge).1 = .error (.cycle edges)) ↔ graph.Closes edge
  reported : ∀ edges, (graph.addImport edge).1 = .error (.cycle edges) →
    ∃ path, edges = edge :: path ∧ ImportPath graph.imports edge.target path edge.importer
  ends : (graph.addImport edge).1 ≠ .error .unbounded
  rejected : ∀ error, (graph.addImport edge).1 = .error error → (graph.addImport edge).2 = graph
  accepted : (graph.addImport edge).1 = .ok () → (graph.addImport edge).2 = graph.insertImport edge

/-- A path leads to modules of the graph only, and from them unless it is empty. -/
theorem Linked.path (linked : graph.Linked) {first last : Module} {path : List (ModuleImport Module)}
    (leads : ImportPath graph.imports first path last) : first ∈ graph.modules ↔ last ∈ graph.modules := by
  induction leads with
  | here => exact Iff.rfl
  | @step edge _ _ member _ ih =>
    constructor
    · intro _
      exact ih.mp (linked.targets edge member)
    · intro _
      exact linked.importers edge member

/-- The three outcomes an import can have. -/
theorem addImport_cases (linked : graph.Linked) (edge : ModuleImport Module) :
    (edge.importer ∉ graph.modules ∧ graph.addImport edge = (.error (.unknownImporter edge.importer), graph)) ∨
    (∃ path, edge.importer ∈ graph.modules ∧ ImportPath graph.imports edge.target path edge.importer ∧
      graph.addImport edge = (.error (.cycle (edge :: path)), graph)) ∨
    (edge.importer ∈ graph.modules ∧ (∀ path, ¬ImportPath graph.imports edge.target path edge.importer) ∧
      graph.addImport edge = (.ok (), graph.insertImport edge)) := by
  unfold addImport
  by_cases known : edge.importer ∈ graph.modules
  · rw [if_neg (fun absent => absent known)]
    rcases pathBetween_spec linked edge.target edge.importer with ⟨path, found, leads⟩ | ⟨missing, none⟩
    · rw [found]
      exact .inr (.inl ⟨path, known, leads, rfl⟩)
    · rw [missing]
      exact .inr (.inr ⟨known, none, rfl⟩)
  · rw [if_pos known]
    exact .inl ⟨known, rfl⟩

theorem addImport_contract (linked : graph.Linked) (edge : ModuleImport Module) : graph.Contract edge := by
  have closed : graph.Closes edge → edge.importer ∈ graph.modules := by
    rintro ⟨inside, path, leads⟩
    exact (linked.path leads).mp inside
  rcases addImport_cases linked edge with ⟨absent, outcome⟩ | ⟨path, known, leads, outcome⟩ | ⟨known, none, outcome⟩
  · refine ⟨?_, ?_, ?_, ?_, ?_, ?_⟩ <;> simp only [outcome]
    · intro importer
      constructor
      · intro same
        cases same
        exact ⟨rfl, absent⟩
      · rintro ⟨rfl, _⟩
        rfl
    · constructor
      · rintro ⟨edges, impossible⟩
        cases impossible
      · intro closes
        exact absurd (closed closes) absent
    · intro edges impossible
      cases impossible
    · intro impossible
      cases impossible
    · intro _ _
      trivial
    · intro impossible
      cases impossible
  · refine ⟨?_, ?_, ?_, ?_, ?_, ?_⟩ <;> simp only [outcome]
    · intro importer
      constructor
      · intro impossible
        cases impossible
      · rintro ⟨_, absent⟩
        exact absurd known absent
    · constructor
      · intro _
        exact ⟨(linked.path leads).mpr known, path, leads⟩
      · intro _
        exact ⟨_, rfl⟩
    · intro edges same
      cases same
      exact ⟨path, rfl, leads⟩
    · intro impossible
      cases impossible
    · intro _ _
      trivial
    · intro impossible
      cases impossible
  · refine ⟨?_, ?_, ?_, ?_, ?_, ?_⟩ <;> simp only [outcome]
    · intro importer
      constructor
      · intro impossible
        cases impossible
      · rintro ⟨_, absent⟩
        exact absurd known absent
    · constructor
      · rintro ⟨edges, impossible⟩
        cases impossible
      · rintro ⟨_, path, leads⟩
        exact absurd leads (none path)
    · intro edges impossible
      cases impossible
    · intro impossible
      cases impossible
    · intro _ impossible
      cases impossible
    · intro _
      trivial

/-! ## Runs -/

/-- What every sequence of imports keeps. -/
structure Sound (graph : ModuleGraph Module) : Prop where
  linked : graph.Linked
  acyclic : graph.Acyclic

theorem sound_new (root : Module) : (new root).Sound := by
  refine ⟨linked_new root, ?_⟩
  intro module path cycle
  cases cycle with
  | here => rfl
  | step member _ => contradiction

/-- An import keeps the graph linked and acyclic, whatever its outcome. -/
theorem sound_addImport (sound : graph.Sound) (edge : ModuleImport Module) : (graph.addImport edge).2.Sound := by
  rcases addImport_cases sound.linked edge with ⟨_, outcome⟩ | ⟨_, _, _, outcome⟩ | ⟨known, none, outcome⟩
  · rw [outcome]
    exact sound
  · rw [outcome]
    exact sound
  · rw [outcome]
    exact ⟨linked_insertImport sound.linked known, acyclic_insertImport sound.acyclic none⟩

theorem sound_addImports (sound : graph.Sound) (imports : List (ModuleImport Module)) : (graph.addImports imports).Sound := by
  induction imports generalizing graph with
  | nil => exact sound
  | cons edge _ ih => exact ih (sound_addImport sound edge)

/-- After any sequence of imports from one root the graph has no cycle, and the next import is
rejected for exactly the reason it reports. -/
theorem import_graph_acyclic (root : Module) (imports : List (ModuleImport Module)) :
    ((new root).addImports imports).Acyclic ∧ ∀ edge, ((new root).addImports imports).Contract edge := by
  have sound := sound_addImports (sound_new root) imports
  exact ⟨sound.acyclic, addImport_contract sound.linked⟩

end Linked

end ModuleGraph

end Opaal.Runtime
