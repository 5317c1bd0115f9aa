import Mathlib.Data.List.Basic

/-!
# Depth-first search for a path

A directed graph is a list of outgoing edges for every vertex and the vertex each edge
leads to.  The search tries the edges of a vertex in order, never enters a vertex twice and
returns the edges of the first path it finds.
-/

namespace Opaal.Graph

open List

variable {α ε : Type} (out : α → List ε) (head : ε → α)

/-- The edges of a path from one vertex to another. -/
inductive Leads : α → List ε → α → Prop where
  | here (vertex : α) : Leads vertex [] vertex
  | step {start last : α} {edge : ε} {path : List ε} (first : edge ∈ out start) (rest : Leads (head edge) path last) :
      Leads start (edge :: path) last

variable [DecidableEq α]

/-- What a search finds; `unbounded` stands for a recursion that does not end. -/
inductive Search (ε : Type) where
  | found (path : List ε)
  | missing
  | unbounded
deriving DecidableEq

/-- The edges of one vertex in order. -/
def tryEach (visit : α → List α → Search ε × List α) : List ε → List α → Search ε × List α
  | [], visited => (.missing, visited)
  | edge :: edges, visited =>
    match visit (head edge) visited with
    | (.found path, visited) => (.found (edge :: path), visited)
    | (.missing, visited) => tryEach visit edges visited
    | (.unbounded, visited) => (.unbounded, visited)

/-- A path to `goal`, with the vertices that were entered, in at most `bound` nested calls. -/
def search (goal : α) : Nat → α → List α → Search ε × List α
  | 0, _, visited => (.unbounded, visited)
  | bound + 1, current, visited =>
    if current = goal then (.found [], visited)
    else if current ∈ visited then (.missing, visited)
    else tryEach head (search goal bound) (out current) (current :: visited)

variable {out head} {goal : α}

/-! ## What is found is a path -/

variable {visit : α → List α → Search ε × List α} {visited entered vertices : List α} {path : List ε} {bound : Nat}
  {current : α}

omit [DecidableEq α] in
theorem tryEach_found {edges : List ε}
    (sound : ∀ vertex visited path entered, visit vertex visited = (.found path, entered) → Leads out head vertex path goal)
    (ran : tryEach head visit edges visited = (.found path, entered)) :
    ∃ edge ∈ edges, ∃ rest, path = edge :: rest ∧ Leads out head (head edge) rest goal := by
  induction edges generalizing visited with
  | nil => cases ran
  | cons edge _ ih =>
    unfold tryEach at ran
    split at ran
    · next inner _ result =>
      cases ran
      exact ⟨edge, mem_cons_self, inner, rfl, sound _ _ _ _ result⟩
    · obtain ⟨other, member, rest, split, leads⟩ := ih ran
      exact ⟨other, mem_cons_of_mem edge member, rest, split, leads⟩
    · cases ran

theorem search_found (ran : search out head goal bound current visited = (.found path, entered)) : Leads out head current path goal := by
  induction bound generalizing current visited entered path with
  | zero => cases ran
  | succ _ ih =>
    unfold search at ran
    split at ran
    · next here =>
      cases ran
      rw [here]
      exact .here goal
    · split at ran
      · cases ran
      · obtain ⟨_, member, _, rfl, leads⟩ := tryEach_found (fun _ _ _ _ inner => ih inner) ran
        exact .step member leads

/-! ## What is missing is unreachable -/

/-- What a search without success leaves: every vertex it entered is not the goal and leads only
to vertices that were entered. -/
structure Exhausts (out : α → List ε) (head : ε → α) (goal : α) (visited entered : List α) : Prop where
  keeps : visited ⊆ entered
  closed : ∀ vertex ∈ entered, vertex ∉ visited → vertex ≠ goal ∧ ∀ edge ∈ out vertex, head edge ∈ entered

omit [DecidableEq α] in
theorem Exhausts.refl (visited : List α) : Exhausts out head goal visited visited :=
  ⟨List.Subset.refl visited, fun _ member fresh => absurd member fresh⟩

theorem Exhausts.trans {first second third : List α} (one : Exhausts out head goal first second)
    (two : Exhausts out head goal second third) : Exhausts out head goal first third := by
  refine ⟨List.Subset.trans one.keeps two.keeps, ?_⟩
  intro vertex member fresh
  by_cases early : vertex ∈ second
  · obtain ⟨apart, edges⟩ := one.closed vertex early fresh
    exact ⟨apart, fun edge found => two.keeps (edges edge found)⟩
  · exact two.closed vertex member early

theorem tryEach_missing {edges : List ε}
    (exhausts : ∀ vertex visited entered, visit vertex visited = (.missing, entered) → Exhausts out head goal visited entered ∧ vertex ∈ entered)
    (ran : tryEach head visit edges visited = (.missing, entered)) :
    Exhausts out head goal visited entered ∧ ∀ edge ∈ edges, head edge ∈ entered := by
  induction edges generalizing visited with
  | nil =>
    cases ran
    exact ⟨Exhausts.refl _, by simp⟩
  | cons _ _ ih =>
    unfold tryEach at ran
    split at ran
    · cases ran
    · next middle result =>
      obtain ⟨first, reached⟩ := exhausts _ _ _ result
      obtain ⟨later, others⟩ := ih ran
      refine ⟨first.trans later, ?_⟩
      intro other member
      rcases mem_cons.mp member with rfl | member
      · exact later.keeps reached
      · exact others other member
    · cases ran

theorem search_missing (ran : search out head goal bound current visited = (.missing, entered)) :
    Exhausts out head goal visited entered ∧ current ∈ entered := by
  induction bound generalizing current visited entered with
  | zero => cases ran
  | succ _ ih =>
    unfold search at ran
    split at ran
    · cases ran
    · next apart =>
      split at ran
      · next old =>
        cases ran
        exact ⟨Exhausts.refl visited, old⟩
      · next fresh =>
        obtain ⟨inner, edges⟩ := tryEach_missing (fun _ _ _ result => ih result) ran
        have here : current ∈ entered := inner.keeps mem_cons_self
        refine ⟨⟨fun vertex member => inner.keeps (mem_cons_of_mem current member), ?_⟩, here⟩
        intro vertex member new
        by_cases same : vertex = current
        · subst same
          exact ⟨apart, edges⟩
        · exact inner.closed vertex member (by simp [same, new])

omit [DecidableEq α] in
theorem Exhausts.leads (exhausts : Exhausts out head goal [] entered) {start last : α}
    (leads : Leads out head start path last) (entry : start ∈ entered) : last ∈ entered := by
  induction leads with
  | here => exact entry
  | step member _ ih => exact ih ((exhausts.closed _ entry not_mem_nil).2 _ member)

/-- A search from scratch that misses the goal has entered everything that is reachable. -/
theorem not_leads_of_missing {start : α} (ran : search out head goal bound start [] = (.missing, entered)) : ¬Leads out head start path goal := by
  obtain ⟨exhausts, here⟩ := search_missing ran
  intro leads
  exact (exhausts.closed goal (exhausts.leads leads here) not_mem_nil).1 rfl

/-! ## The search ends -/

/-- The vertices of a graph that were not entered yet. -/
def unentered (vertices visited : List α) : List α := vertices.filter (· ∉ visited)

theorem unentered_le (keeps : visited ⊆ entered) :
    (unentered vertices entered).length ≤ (unentered vertices visited).length := by
  apply List.Sublist.length_le
  apply monotone_filter_right
  intro vertex fresh
  simp only [decide_eq_true_eq] at fresh ⊢
  exact fun old => fresh (keeps old)

theorem unentered_lt (member : current ∈ vertices) (fresh : current ∉ visited) :
    (unentered vertices (current :: visited)).length < (unentered vertices visited).length := by
  have split : unentered vertices (current :: visited) = (unentered vertices visited).filter (· ≠ current) := by
    unfold unentered
    rw [filter_filter]
    apply filter_congr
    intro vertex _
    by_cases same : vertex = current <;> simp [same]
  rw [split]
  apply length_filter_lt_length_iff_exists.mpr
  refine ⟨current, ?_, by simp⟩
  unfold unentered
  simp [member, fresh]

omit [DecidableEq α] in
/-- Whatever a search returns, it forgets no vertex. -/
theorem tryEach_keeps (keeps : ∀ vertex visited, visited ⊆ (visit vertex visited).2) (edges : List ε) (visited : List α) : visited ⊆ (tryEach head visit edges visited).2 := by
  induction edges generalizing visited with
  | nil => exact List.Subset.refl visited
  | cons edge _ ih =>
    have first := keeps (head edge) visited
    unfold tryEach
    split
    · next result =>
      rw [result] at first
      exact first
    · next result =>
      rw [result] at first
      exact List.Subset.trans first (ih _)
    · next result =>
      rw [result] at first
      exact first

theorem search_keeps (bound : Nat) (current : α) (visited : List α) :
    visited ⊆ (search out head goal bound current visited).2 := by
  induction bound generalizing current visited with
  | zero => exact List.Subset.refl visited
  | succ _ ih =>
    unfold search
    split
    · exact List.Subset.refl visited
    · split
      · exact List.Subset.refl visited
      · exact List.Subset.trans (subset_cons_self current visited) (tryEach_keeps ih _ _)

/-- With more nested calls allowed than there are vertices to enter, the search ends. -/
theorem search_ends (closed : ∀ vertex, ∀ edge ∈ out vertex, head edge ∈ vertices) (bound : Nat) (current : α)
    (visited : List α) (member : current ∈ vertices) (enough : (unentered vertices visited).length < bound) :
    (search out head goal bound current visited).1 ≠ .unbounded := by
  induction bound generalizing current visited with
  | zero => omega
  | succ bound ih =>
    unfold search
    split
    · simp
    · split
      · simp
      · next fresh =>
        have fewer := unentered_lt member fresh
        have each : ∀ (edges : List ε) (entered : List α), (∀ edge ∈ edges, head edge ∈ vertices) →
            (unentered vertices entered).length < bound → (tryEach head (search out head goal bound) edges entered).1 ≠ .unbounded := by
          intro edges
          induction edges with
          | nil => simp [tryEach]
          | cons edge edges inner =>
            intro entered inside room
            have ends := ih (head edge) entered (inside edge mem_cons_self) room
            have keeps : entered ⊆ (search out head goal bound (head edge) entered).2 := search_keeps bound (head edge) entered
            unfold tryEach
            split
            · simp
            · next middle result =>
              rw [result] at keeps
              have less : (unentered vertices middle).length ≤ (unentered vertices entered).length := unentered_le keeps
              exact inner middle (fun other found => inside other (mem_cons_of_mem edge found)) (by omega)
            · next result =>
              rw [result] at ends
              exact absurd rfl ends
        exact each (out current) (current :: visited) (fun edge found => closed current edge found) (by omega)

end Opaal.Graph
