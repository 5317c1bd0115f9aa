import Opaal.Graph.Search

/-!
# Depth-first preorder

What a depth-first walk lists: a vertex that was not listed before comes first, then what is
listed from the vertices it leads to, in their order.  Nothing is said here of how a walk is
done.
-/

namespace Opaal.Graph

open List

variable {α : Type} {next : α → List α}

/-- The vertices listed from those that are left, beside those seen before. -/
inductive Preorder (next : α → List α) : List α → List α → List α → Prop where
  | done (seen : List α) : Preorder next seen [] []
  | again {seen left order : List α} {vertex : α} (old : vertex ∈ seen) (rest : Preorder next seen left order) :
      Preorder next seen (vertex :: left) order
  | enter {seen left order : List α} {vertex : α} (fresh : vertex ∉ seen)
      (rest : Preorder next (vertex :: seen) (next vertex ++ left) order) : Preorder next seen (vertex :: left) (vertex :: order)

/-- Every vertex is listed once. -/
theorem Preorder.nodup {seen left order : List α} (walk : Preorder next seen left order) :
    order.Nodup ∧ ∀ vertex ∈ order, vertex ∉ seen := by
  induction walk with
  | done => exact ⟨nodup_nil, nofun⟩
  | again _ _ ih => exact ih
  | enter fresh _ ih =>
    obtain ⟨distinct, apart⟩ := ih
    refine ⟨nodup_cons.mpr ⟨fun listed => apart _ listed mem_cons_self, distinct⟩, ?_⟩
    intro vertex listed
    rcases mem_cons.mp listed with rfl | later
    · exact fresh
    · exact fun old => apart vertex later (mem_cons_of_mem _ old)

/-! ## Paths from vertex to vertex -/

/-- A path that names the vertices it goes through, without the first. -/
abbrev Path (next : α → List α) : α → List α → α → Prop := Leads next id

variable {first : α} {path : List α}

theorem Path.append {middle last : α} {path' : List α} (one : Path next first path middle) (two : Path next middle path' last) : Path next first (path ++ path') last := by
  induction one with
  | here => exact two
  | step edge _ ih => exact .step edge (ih two)

theorem Path.congr {next' : α → List α} (same : ∀ vertex, ∀ later ∈ next vertex, later ∈ next' vertex) {last : α}
    (walk : Path next first path last) : Path next' first path last := by
  induction walk with
  | here vertex => exact .here vertex
  | step edge _ ih => exact .step (same _ _ edge) ih

/-- The end of a path is its first vertex or has a vertex before it. -/
theorem Path.last {last : α} (walk : Path next first path last) :
    (path = [] ∧ last = first) ∨ ∃ front middle, path = front ++ [last] ∧ Path next first front middle ∧ last ∈ next middle := by
  induction walk with
  | here => exact .inl ⟨rfl, rfl⟩
  | @step start _ edge _ listed _ ih =>
    refine .inr ?_
    rcases ih with ⟨rfl, rfl⟩ | ⟨front, middle, rfl, walk, leads⟩
    · exact ⟨[], start, rfl, .here start, listed⟩
    · exact ⟨edge :: front, middle, rfl, .step listed walk, leads⟩

/-- What can be left only in finitely many steps is on no cycle. -/
theorem Path.ends_of_acc {vertex : α} (ends : Acc (fun later earlier => later ∈ next earlier) vertex)
    (cycle : Path next vertex path vertex) : path = [] := by
  induction ends generalizing path with
  | intro _ _ ih =>
    cases cycle with
    | here => rfl
    | @step _ _ edge rest listed walk =>
      have around : Path next edge (rest ++ [edge]) edge := Path.append walk (.step listed (.here edge))
      exact absurd (ih edge listed around) (by simp)

end Opaal.Graph
