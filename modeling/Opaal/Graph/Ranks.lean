import Mathlib.Data.List.Chain
import Mathlib.Logic.Relation

/-!
# Ranked graphs

Where every edge leads to a higher rank there is no cycle, and ranks bound the length of
the chains of edges.
-/

namespace Opaal.Graph

open List

variable {α : Type} {edge : α → α → Prop} {rank : α → Nat}

theorem rank_lt_of_transGen (rising : ∀ first last, edge first last → rank first < rank last) {first last : α}
    (path : Relation.TransGen edge first last) : rank first < rank last := by
  induction path with
  | single step => exact rising _ _ step
  | tail _ step ih => exact Nat.lt_trans ih (rising _ _ step)

theorem acyclic_of_rank (rising : ∀ first last, edge first last → rank first < rank last) (vertex : α) :
    ¬ Relation.TransGen edge vertex vertex :=
  fun cycle => Nat.lt_irrefl _ (rank_lt_of_transGen rising cycle)

/-- A chain has room for one rank a vertex. -/
theorem chain_rank (rising : ∀ first last, edge first last → rank first < rank last) {bound : Nat} (first : α) (rest : List α)
    (chain : List.IsChain edge (first :: rest)) (bounded : ∀ vertex ∈ first :: rest, rank vertex ≤ bound) :
    rank first + rest.length ≤ bound := by
  induction rest generalizing first with
  | nil => exact bounded first (mem_singleton_self first)
  | cons second rest ih =>
    obtain ⟨step, chain⟩ := isChain_cons_cons.mp chain
    have climbs := rising first second step
    have below := ih second chain fun vertex listed => bounded vertex (mem_cons_of_mem first listed)
    rw [length_cons]
    omega

/-- The vertices a trail comes from lead to where it is. -/
theorem trail_leads {vertex origin : α} {trail : List α} (chain : List.IsChain (fun later earlier => edge earlier later) (vertex :: trail))
    (listed : origin ∈ vertex :: trail) : Relation.ReflTransGen edge origin vertex := by
  induction trail generalizing vertex with
  | nil =>
    rw [mem_singleton.mp listed]
  | cons previous trail ih =>
    obtain ⟨step, chain⟩ := isChain_cons_cons.mp chain
    rcases mem_cons.mp listed with rfl | earlier
    · exact .refl
    · exact (ih chain earlier).tail step

end Opaal.Graph
