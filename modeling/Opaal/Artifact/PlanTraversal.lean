import Opaal.Artifact.PlanActions

/-!
# What the walk over dependencies lists

A walk that returns has listed the nodes in depth-first preorder.  Every node that was left
can be left only in finitely many steps, so it is on no cycle; and every node that was
entered is at the end of a branch for which there was room.
-/

namespace Opaal.Workflow

open Opaal.Graph List
open Opaal.Machine (bind_ok)

section Walk

variable (nodes : List (String × List String)) (ordinals : List (String × Nat))

/-- The dependencies of a node in the order in which they are walked. -/
def nextNodes (node : String) : List String := byOrdinal ordinals ((nodes.lookup node).getD [])

/-- What a walk over some nodes does to a visit, apart from what it enters. -/
structure Walked (room : Nat) (left : List String) (before after : Visit) (order : List String) : Prop where
  traversal : after.traversal = before.traversal ++ order
  visiting : after.visiting = before.visiting
  visited : ∀ node, node ∈ after.visited ↔ node ∈ order ∨ node ∈ before.visited
  closed : ∀ node ∈ left, node ∈ after.visited
  preorder : ∀ seen rest tail, (∀ node, node ∈ seen ↔ node ∈ before.visiting ∨ node ∈ before.visited) →
    Preorder (nextNodes nodes ordinals) (order.reverse ++ seen) rest tail →
      Preorder (nextNodes nodes ordinals) seen (left ++ rest) (order ++ tail)
  ends : (∀ node ∈ before.visited, Acc (fun later earlier => later ∈ nextNodes nodes ordinals earlier) node) →
    ∀ node ∈ after.visited, Acc (fun later earlier => later ∈ nextNodes nodes ordinals earlier) node
  branches : ∀ node ∈ order, ∃ start ∈ left, ∃ path, Path (nextNodes nodes ordinals) start path node ∧ path.length < room

variable {nodes ordinals} {room : Nat} {before middle after : Visit}

theorem Walked.nil : Walked nodes ordinals room [] before before [] where
  traversal := (append_nil _).symm
  visiting := rfl
  visited := by simp
  closed := nofun
  preorder := fun _ _ _ _ walk => walk
  ends := id
  branches := nofun

variable {node : String} {left order : List String} {step : Visit → String → Checked Visit} {absent : Prop}

theorem Walked.old (old : node ∈ before.visited) : Walked nodes ordinals room [node] before before [] where
  traversal := (append_nil _).symm
  visiting := rfl
  visited := by simp
  closed := by
    intro other listed
    rw [mem_singleton.mp listed]
    exact old
  preorder := fun seen _ _ known walk => .again ((known node).mpr (.inr old)) walk
  ends := id
  branches := nofun

theorem Walked.append {left' order' : List String} (one : Walked nodes ordinals room left before middle order)
    (two : Walked nodes ordinals room left' middle after order') :
    Walked nodes ordinals room (left ++ left') before after (order ++ order') where
  traversal := by rw [two.traversal, one.traversal, append_assoc]
  visiting := two.visiting.trans one.visiting
  visited := by
    intro node
    rw [two.visited, one.visited, mem_append]
    tauto
  closed := by
    intro node listed
    rcases mem_append.mp listed with first | second
    · exact (two.visited node).mpr (.inr (one.closed node first))
    · exact two.closed node second
  preorder := by
    intro seen rest tail known walk
    rw [append_assoc, append_assoc]
    refine one.preorder seen _ _ known (two.preorder _ _ _ ?_ ?_)
    · intro node
      rw [mem_append, mem_reverse, known, one.visiting, one.visited]
      tauto
    · rw [reverse_append, append_assoc] at walk
      exact walk
  ends := fun all => two.ends (one.ends all)
  branches := by
    intro node listed
    rcases mem_append.mp listed with first | second
    · obtain ⟨start, among, branch⟩ := one.branches node first
      exact ⟨start, mem_append_left _ among, branch⟩
    · obtain ⟨start, among, branch⟩ := two.branches node second
      exact ⟨start, mem_append_right _ among, branch⟩

/-- A node is listed before what is listed from its dependencies. -/
theorem Walked.around (fresh : node ∉ before.visited) (entered : node ∉ before.visiting)
    (inner : Walked nodes ordinals room (nextNodes nodes ordinals node) (before.enter node) middle order) :
    Walked nodes ordinals (room + 1) [node] before (middle.leave node) (node :: order) where
  traversal := by
    show middle.traversal = _
    rw [inner.traversal]
    exact append_assoc _ _ _
  visiting := by
    show middle.visiting.erase node = _
    rw [inner.visiting]
    exact erase_cons_head node before.visiting
  visited := by
    intro other
    show other ∈ node :: middle.visited ↔ _
    rw [mem_cons, inner.visited, mem_cons, or_assoc]
    rfl
  closed := by
    intro other listed
    rw [mem_singleton.mp listed]
    exact mem_cons_self
  preorder := by
    intro seen rest tail known walk
    rw [reverse_cons, append_assoc] at walk
    have unseen : node ∉ seen := fun old => ((known node).mp old).elim entered fresh
    refine .enter unseen (inner.preorder _ _ _ ?_ walk)
    intro other
    show _ ↔ other ∈ node :: before.visiting ∨ other ∈ before.visited
    rw [mem_cons, mem_cons, known, or_assoc]
  ends := by
    intro all other listed
    have inside := inner.ends all
    rcases mem_cons.mp listed with rfl | earlier
    · exact Acc.intro other fun later leads => inside later (inner.closed later leads)
    · exact inside other earlier
  branches := by
    intro other listed
    refine ⟨node, mem_singleton_self node, ?_⟩
    rcases mem_cons.mp listed with rfl | later
    · exact ⟨[], .here other, Nat.succ_pos room⟩
    · obtain ⟨start, leads, path, walk, short⟩ := inner.branches other later
      exact ⟨start :: path, .step leads walk, Nat.succ_lt_succ short⟩

/-- One node after another. -/
theorem visits_walked
    (each : ∀ node before after, step before node = .ok after → ∃ order, Walked nodes ordinals room [node] before after order)
    (ran : left.foldlM step before = .ok after) :
    ∃ order, Walked nodes ordinals room left before after order := by
  induction left generalizing before with
  | nil =>
    cases ran
    exact ⟨[], Walked.nil⟩
  | cons node _ ih =>
    obtain ⟨middle, visited, ran⟩ := bind_ok ran
    obtain ⟨order, first⟩ := each node before middle visited
    obtain ⟨order', others⟩ := ih ran
    exact ⟨order ++ order', first.append others⟩

theorem visitActionGraph_walked (ran : visitActionGraph nodes ordinals room node before = .ok after) :
    ∃ order, Walked nodes ordinals room [node] before after order := by
  induction room generalizing node before after with
  | zero =>
    unfold visitActionGraph at ran
    split at ran
    · next old =>
      cases ran
      exact ⟨[], Walked.old old⟩
    · split at ran <;> cases ran
  | succ _ ih =>
    unfold visitActionGraph at ran
    split at ran
    · next old =>
      cases ran
      exact ⟨[], Walked.old old⟩
    next fresh =>
    split at ran
    · cases ran
    next entered =>
    obtain ⟨dependencies, found, ran⟩ := bind_ok ran
    obtain ⟨_, visits, ran⟩ := bind_ok ran
    cases ran
    obtain ⟨order, inner⟩ := visits_walked (fun _ _ _ => ih) visits
    have next : nextNodes nodes ordinals node = byOrdinal ordinals dependencies := by
      rw [nextNodes, expect_ok found, Option.getD_some]
    rw [← next] at inner
    exact ⟨node :: order, inner.around fresh entered⟩

/-- The whole walk, from a node that is entered first. -/
structure Traversed (nodes : List (String × List String)) (ordinals : List (String × Nat)) (room : Nat) (root : String)
    (order : List String) : Prop where
  preorder : Preorder (nextNodes nodes ordinals) [] [root] order
  ends : ∀ node ∈ order, Acc (fun later earlier => later ∈ nextNodes nodes ordinals earlier) node
  branches : ∀ node ∈ order, ∃ path, Path (nextNodes nodes ordinals) root path node ∧ path.length < room

theorem visitActionGraph_traversed {root : String} (ran : visitActionGraph nodes ordinals room root .start = .ok after) :
    Traversed nodes ordinals room root after.traversal := by
  obtain ⟨order, walked⟩ := visitActionGraph_walked ran
  have same : after.traversal = order := walked.traversal
  rw [same]
  constructor
  · have whole := walked.preorder [] [] [] (by simp [Visit.start]) (.done _)
    rw [append_nil, append_nil] at whole
    exact whole
  · intro node listed
    exact walked.ends nofun node ((walked.visited node).mpr (.inl listed))
  · intro node listed
    obtain ⟨_, among, branch⟩ := walked.branches node listed
    rw [mem_singleton.mp among] at branch
    exact branch

/-- A walk ends: it returns, it refuses a cycle or a depth, or, where a node may be absent, it
panics. -/
def Settled (absent : Prop) (result : Checked Visit) : Prop :=
  (∃ after, result = .ok after) ∨ result = invalid "plan action dependency graph is cyclic" ∨
    result = invalid "plan action dependency depth exceeds 64" ∨ (absent ∧ result = .error (.panic "no entry found for key"))

theorem Settled.bind {first : Checked Visit} {rest : Visit → Checked Visit} (settled : Settled absent first)
    (others : ∀ visit, Settled absent (rest visit)) : Settled absent (first >>= rest) := by
  rcases settled with ⟨middle, returned⟩ | cyclic | deep | ⟨missing, panics⟩
  · rw [returned]
    exact others middle
  · rw [cyclic]
    exact .inr (.inl rfl)
  · rw [deep]
    exact .inr (.inr (.inl rfl))
  · rw [panics]
    exact .inr (.inr (.inr ⟨missing, rfl⟩))

theorem visits_settled (each : ∀ node ∈ left, ∀ visit, Settled absent (step visit node)) : Settled absent (left.foldlM step before) := by
  induction left generalizing before with
  | nil => exact .inl ⟨before, rfl⟩
  | cons node _ ih =>
    exact (each node mem_cons_self before).bind fun _ => ih fun other listed => each other (mem_cons_of_mem node listed)

/-- Dependencies that are nodes themselves. -/
def Resolves (nodes : List (String × List String)) : Prop :=
  ∀ node dependencies, nodes.lookup node = some dependencies → ∀ dependency ∈ dependencies, (nodes.lookup dependency).isSome

theorem visitActionGraph_settles (resolved : absent ∨ Resolves nodes) (known : absent ∨ (nodes.lookup node).isSome) : Settled absent (visitActionGraph nodes ordinals room node before) := by
  induction room generalizing node before with
  | zero =>
    unfold visitActionGraph
    split
    · exact .inl ⟨before, rfl⟩
    · split
      · exact .inr (.inl rfl)
      · exact .inr (.inr (.inl rfl))
  | succ _ ih =>
    unfold visitActionGraph
    split
    · exact .inl ⟨before, rfl⟩
    split
    · exact .inr (.inl rfl)
    cases found : nodes.lookup node with
    | none =>
      rw [found] at known
      exact .inr (.inr (.inr ⟨known.resolve_right Bool.noConfusion, rfl⟩))
    | some dependencies =>
      refine Settled.bind (visits_settled fun dependency listed visit => ih ?_) fun visit => .inl ⟨visit.leave node, rfl⟩
      exact resolved.imp_right fun resolves => resolves node dependencies found dependency ((mem_insertionSort _).mp listed)

end Walk

/-- The walk from a node ends on every map of dependencies, and without a panic where all of them are
nodes. -/
theorem visitActionGraph_settled (nodes : List (String × List String)) (ordinals : List (String × Nat)) (room : Nat) (node : String)
    (visit : Visit) :
    Settled (¬ (Resolves nodes ∧ (nodes.lookup node).isSome)) (visitActionGraph nodes ordinals room node visit) := by
  by_cases both : Resolves nodes ∧ (nodes.lookup node).isSome = true
  · exact visitActionGraph_settles (.inr both.1) (.inr both.2)
  · exact visitActionGraph_settles (.inl both) (.inl both)

end Opaal.Workflow
