import Mathlib.Data.List.Sort
import Mathlib.Data.String.Basic
import Opaal.Json.Tree

/-!
# Documents with their members in order

A map keeps its members in the order of their keys, each key once.  A document is ordered
when all its objects are such maps; the order and the members determine the object.
-/

namespace Opaal.Json

open List

/-- The keys of a map in order, each once. -/
def Members.Sorted (members : Members) : Prop := members.Pairwise fun first second => first.1 < second.1

inductive Tree.Ordered : Tree → Prop
  | null : Ordered .null
  | bool (value : Bool) : Ordered (.bool value)
  | number (value : Number) : Ordered (.number value)
  | string (value : String) : Ordered (.string value)
  | array {items : List Tree} (all : ∀ item ∈ items, Ordered item) : Ordered (.array items)
  | object {members : Members} (sorted : members.Sorted) (all : ∀ member ∈ members, Ordered member.2) :
      Ordered (.object members)

/-- A document as it is held: its objects are maps. -/
structure OrderedTree where
  tree : Tree
  ordered : tree.Ordered

namespace Members

variable {members : Members} {key : String} {value : Tree}

theorem Sorted.eq_of_perm {first second : Members} (left : first.Sorted) (right : second.Sorted)
    (permuted : first.Perm second) : first = second := by
  refine permuted.eq_of_pairwise ?_ left right
  intro one other _ _ before after
  exact absurd before (lt_asymm after)

theorem Sorted.nodup (sorted : members.Sorted) : (members.map Prod.fst).Nodup := by
  unfold List.Nodup
  rw [pairwise_map]
  exact sorted.imp fun before => ne_of_lt before

@[simp]
theorem get?_insert : get? (insert key value members) key = some value := by
  unfold get?
  induction members with
  | nil => simp [insert]
  | cons member _ ih =>
    unfold insert
    split
    · simp
    · next different =>
      split
      · simp
      · rw [lookup_cons, beq_false_of_ne different]
        exact ih

variable {member : String × Tree} {entries : List (String × Tree)}

theorem mem_insert (held : member ∈ insert key value members) :
    member = (key, value) ∨ member ∈ members := by
  induction members with
  | nil => exact .inl (mem_singleton.mp held)
  | cons first _ ih =>
    unfold insert at held
    split at held
    · rcases mem_cons.mp held with same | later
      · exact .inl same
      · exact .inr (mem_cons_of_mem _ later)
    · split at held
      · exact mem_cons.mp held
      · rcases mem_cons.mp held with same | later
        · exact .inr (same ▸ mem_cons_self)
        · rcases ih later with same | further
          · exact .inl same
          · exact .inr (mem_cons_of_mem _ further)

theorem Sorted.insert (sorted : members.Sorted) (key : String) (value : Tree) : (insert key value members).Sorted := by
  induction members with
  | nil => exact pairwise_singleton _ _
  | cons first _ ih =>
    obtain ⟨before, rest⟩ := pairwise_cons.mp sorted
    unfold Members.insert
    split
    · next same =>
      subst same
      exact pairwise_cons.mpr ⟨before, rest⟩
    · next different =>
      split
      · next less =>
        refine pairwise_cons.mpr ⟨?_, sorted⟩
        intro member held
        rcases mem_cons.mp held with rfl | later
        · exact less
        · exact less.trans (before member later)
      · next notLess =>
        refine pairwise_cons.mpr ⟨?_, ih rest⟩
        intro member held
        rcases mem_insert held with rfl | later
        · exact lt_of_le_of_ne (not_lt.mp notLess) (Ne.symm different)
        · exact before member later

theorem insert_perm (fresh : key ∉ members.map Prod.fst) : (insert key value members).Perm ((key, value) :: members) := by
  induction members with
  | nil => exact List.Perm.refl _
  | cons first _ ih =>
    rw [map_cons, mem_cons, not_or] at fresh
    unfold insert
    rw [if_neg fresh.1]
    split
    · exact List.Perm.refl _
    · exact ((ih fresh.2).cons _).trans (List.Perm.swap _ _ _)

/-- The members of a map, put in one after another. -/
def ofEntries (entries : List (String × Tree)) : Members :=
  entries.foldl (fun members entry => insert entry.1 entry.2 members) []

theorem foldl_insert (sorted : members.Sorted) (distinct : ((members ++ entries).map Prod.fst).Nodup) :
    Sorted (entries.foldl (fun members entry => insert entry.1 entry.2 members) members) ∧
      (entries.foldl (fun members entry => insert entry.1 entry.2 members) members).Perm (members ++ entries) := by
  induction entries generalizing members with
  | nil =>
    rw [append_nil]
    exact ⟨sorted, List.Perm.refl _⟩
  | cons entry entries ih =>
    have fresh : entry.1 ∉ members.map Prod.fst := by
      rw [map_append, map_cons] at distinct
      intro held
      exact disjoint_of_nodup_append distinct held mem_cons_self
    have moved : (insert entry.1 entry.2 members ++ entries).Perm (members ++ entry :: entries) :=
      ((insert_perm fresh).append_right entries).trans perm_middle.symm
    have onward := @ih (insert entry.1 entry.2 members) (sorted.insert _ _) ((moved.map Prod.fst).nodup_iff.mpr distinct)
    exact ⟨onward.1, onward.2.trans moved⟩

theorem ofEntries_sorted (entries : List (String × Tree)) : Sorted (ofEntries entries) := by
  have kept : ∀ (entries : List (String × Tree)) (members : Members), members.Sorted →
      Sorted (entries.foldl (fun members entry => insert entry.1 entry.2 members) members) := by
    intro entries
    induction entries with
    | nil => exact fun members sorted => sorted
    | cons _ _ ih => exact fun members sorted => ih _ (sorted.insert _ _)
  exact kept entries [] .nil

theorem mem_ofEntries (held : member ∈ ofEntries entries) :
    member ∈ entries := by
  have kept : ∀ (entries : List (String × Tree)) (members : Members),
      member ∈ entries.foldl (fun members entry => insert entry.1 entry.2 members) members → member ∈ members ∨ member ∈ entries := by
    intro entries
    induction entries with
    | nil => exact fun members held => .inl held
    | cons _ _ ih =>
      intro members held
      rcases ih _ held with early | late
      · rcases mem_insert early with rfl | before
        · exact .inr mem_cons_self
        · exact .inl before
      · exact .inr (mem_cons_of_mem _ late)
  rcases kept entries [] held with impossible | held
  · cases impossible
  · exact held

/-- The last entry of a key is the one that is kept. -/
theorem get?_ofEntries (entries : List (String × Tree)) (key : String) :
    get? (ofEntries entries) key = entries.reverse.lookup key := by
  have kept : ∀ (entries : List (String × Tree)) (members : Members),
      get? (entries.foldl (fun members entry => insert entry.1 entry.2 members) members) key =
        (entries.reverse.lookup key).or (get? members key) := by
    intro entries
    induction entries with
    | nil => exact fun members => rfl
    | cons entry _ ih =>
      intro members
      rw [foldl_cons, ih, reverse_cons, lookup_append, Option.or_assoc]
      by_cases same : key = entry.1
      · subst same
        rw [get?_insert, lookup_cons_self, Option.some_or]
      · rw [get?_insert_of_ne same, lookup_cons, beq_false_of_ne same, lookup_nil, Option.none_or]
  have built := kept entries []
  rw [show get? [] key = none from rfl, Option.or_none] at built
  exact built

/-- In whatever order its members come, the same map is built. -/
theorem ofEntries_eq (sorted : members.Sorted) (permuted : entries.Perm members) :
    ofEntries entries = members := by
  have distinct : (([] ++ entries : List (String × Tree)).map Prod.fst).Nodup :=
    (permuted.map Prod.fst).nodup_iff.mpr sorted.nodup
  obtain ⟨inOrder, same⟩ := foldl_insert .nil distinct
  exact inOrder.eq_of_perm sorted (same.trans permuted)

end Members

end Opaal.Json
