import Mathlib.Data.List.Nodup
import Opaal.Order.BottomUp
import Opaal.Runtime.JsonDecoderReads

/-!
# Repeated keys

The decoder sorts positions by the bytes of their keys and compares neighbours.  Sorting is a
bottom-up merge sort whose comparisons go chunk by chunk; erased of its charges it leaves
exactly the objects with a repeated key to be refused.
-/

namespace Opaal.Runtime.JsonDecoder

open Opaal.Machine List
open Opaal.Text (bytes)
open Follows (returns)
open List (range toChunks)

/-! ## Chunks -/

section Chunks

variable {α : Type}

variable (size : Nat)

theorem go_eq_append (items : List α) (chunk : Array α) (done : Array (List α)) :
    toChunks.go size items chunk done = done.toList ++ toChunks.go size items chunk #[] := by
  induction items generalizing chunk done with
  | nil => simp [toChunks.go]
  | cons _ _ ih =>
    unfold toChunks.go
    split
    · rw [ih _ (done.push chunk.toList), ih _ (#[].push chunk.toList)]
      simp
    · exact ih _ done

theorem go_eq_cons (items : List α) (chunk : Array α) (room : chunk.size ≤ size + 1) :
    toChunks.go (size + 1) items chunk #[] =
      (chunk.toList ++ items).take (size + 1) :: ((chunk.toList ++ items).drop (size + 1)).toChunks (size + 1) := by
  induction items generalizing chunk with
  | nil =>
    have short : chunk.toList.length ≤ size + 1 := room
    rw [append_nil, take_of_length_le short, drop_eq_nil_of_le short]
    rfl
  | cons item items ih =>
    unfold toChunks.go
    split
    · next full =>
      have length : chunk.toList.length = size + 1 := beq_iff_eq.mp full
      rw [go_eq_append, take_left' length, drop_left' length]
      rfl
    · next more =>
      have different : chunk.size ≠ size + 1 := fun same => more (beq_iff_eq.mpr same)
      have room' : (chunk.push item).size ≤ size + 1 := by
        rw [Array.size_push]
        omega
      rw [ih _ room', Array.toList_push, append_assoc, singleton_append]

/-- The first chunk and the others. -/
theorem toChunks_cons (item : α) (items : List α) :
    (item :: items).toChunks (size + 1) =
      (item :: items).take (size + 1) :: ((item :: items).drop (size + 1)).toChunks (size + 1) := by
  show toChunks.go (size + 1) items #[item] #[] = _
  rw [go_eq_cons size items #[item] (by simp)]
  rfl

end Chunks

/-! ## Comparing keys -/

/-- The first bytes decide unless they are the same. -/
theorem compare_take_drop (size : Nat) (left right : List UInt8) : compare left right =
    (compare (left.take size) (right.take size)).then (compare (left.drop size) (right.drop size)) := by
  induction size generalizing left right with
  | zero => simp
  | succ _ ih =>
    cases left with
    | nil => cases right <;> simp
    | cons _ left =>
      cases right with
      | nil => simp
      | cons _ right =>
        rw [take_succ_cons, take_succ_cons, drop_succ_cons, drop_succ_cons,
          List.compare_cons_cons, List.compare_cons_cons, ih left right, Ordering.then_assoc]

theorem compare_length_drop {size : Nat} {left right : List UInt8} (same : left.take size = right.take size) :
    compare (left.drop size).length (right.drop size).length = compare left.length right.length := by
  have lengths := congrArg List.length same
  rw [length_take, length_take] at lengths
  rw [length_drop, length_drop, Nat.compare_eq_ite_lt, Nat.compare_eq_ite_lt]
  split_ifs <;> first | rfl | omega

section Keys

variable {β : Type} {input : DecoderInput β} {decoder : JsonDecoder}

theorem compareChunks_follows (count : Nat) (left right : List UInt8) (bound : left.length < count) :
    Follows input decoder (compareChunks (compare left.length right.length)
      ((left.toChunks chunkSize).zip (right.toChunks chunkSize))) (some (compare left right, decoder.rest)) := by
  induction count generalizing decoder left right with
  | zero => omega
  | succ count ih =>
    cases left with
    | nil =>
      have decided : compare ([] : List UInt8).length right.length = compare [] right := by
        cases right with
        | nil => rfl
        | cons => simp [Nat.compare_eq_ite_lt]
      rw [decided]
      exact returns _
    | cons byte left =>
      cases right with
      | nil =>
        have decided : compare (byte :: left).length ([] : List UInt8).length = compare (byte :: left) [] := by
          simp [Nat.compare_eq_ite_lt]
        have ends : ([] : List UInt8).toChunks chunkSize = [] := rfl
        rw [decided, ends, zip_nil_right]
        exact returns _
      | cons other right =>
        have size : chunkSize = 4095 + 1 := rfl
        have split := compare_take_drop chunkSize (byte :: left) (other :: right)
        rw [size, toChunks_cons, toChunks_cons, zip_cons_cons, ← size]
        apply visit_follows.step
        intro visited rest
        rw [← rest]
        by_cases same : compare ((byte :: left).take chunkSize) ((other :: right).take chunkSize) = .eq
        · rw [same, Ordering.eq_then] at split
          simp only [same, ne_eq, not_true_eq_false, ↓reduceIte]
          rw [split, ← compare_length_drop (Std.LawfulEqOrd.eq_of_compare same)]
          apply ih
          rw [length_drop, size]
          simp only [length_cons] at bound ⊢
          omega
        · simp only [ne_eq, same, not_false_eq_true, ↓reduceIte]
          have decided : compare (byte :: left) (other :: right) =
              compare ((byte :: left).take chunkSize) ((other :: right).take chunkSize) := by
            rw [split]
            cases order : compare ((byte :: left).take chunkSize) ((other :: right).take chunkSize) with
            | lt | gt => rfl
            | eq => exact absurd order same
          rw [decided]
          exact returns _

theorem recordCompare_follows (left right : List UInt8) :
    Follows input decoder (recordCompare left right) (some (compare left right, decoder.rest)) := by
  apply visit_follows.step
  intro visited rest
  rw [← rest]
  exact compareChunks_follows _ left right (Nat.lt_succ_self _)

/-! ## Sorting positions -/

/-- The order by key, in which equal keys go both ways. -/
def keyOrder (key : Nat → List UInt8) (first second : Nat) : Bool := compare (key first) (key second) != .gt

variable {key : Nat → List UInt8}

variable (first second : Nat) (keys : List (List Char))

theorem keyOrder_eq_isLE : keyOrder key first second = (compare (key first) (key second)).isLE := by
  unfold keyOrder
  cases compare (key first) (key second) <;> rfl

theorem keyOrder_trans (third : Nat) (one : keyOrder key first second) (two : keyOrder key second third) :
    keyOrder key first third := by
  rw [keyOrder_eq_isLE] at one two ⊢
  exact Std.TransCmp.isLE_trans one two

theorem keyOrder_total : keyOrder key first second || keyOrder key second first := by
  rw [keyOrder_eq_isLE, keyOrder_eq_isLE, @Std.OrientedCmp.eq_swap _ compare _ (key second) (key first)]
  cases compare (key first) (key second) <;> rfl

theorem mergeRuns_follows (slots : Nat) (left right : List Nat) (exact' : slots = left.length + right.length) :
    Follows input decoder (mergeRuns key slots left right) (some (left.merge right (keyOrder key), decoder.rest)) := by
  induction slots generalizing decoder left right with
  | zero =>
    have none : left = [] ∧ right = [] := by
      constructor <;> (apply eq_nil_of_length_eq_zero; omega)
    obtain ⟨rfl, rfl⟩ := none
    rw [nil_merge]
    exact returns []
  | succ slots ih =>
    apply visit_follows.step
    intro visited rest
    rw [← rest]
    cases left with
    | nil =>
      cases right with
      | nil => contradiction
      | cons other right =>
        apply (ih [] right (by simp only [length_cons, length_nil] at exact' ⊢; omega)).step
        intro after same
        rw [← same, nil_merge, nil_merge]
        exact returns _
    | cons first left =>
      cases right with
      | nil =>
        apply (ih left [] (by simp only [length_cons, length_nil] at exact' ⊢; omega)).step
        intro after same
        rw [← same, merge_right, merge_right]
        exact returns _
      | cons other right =>
        apply (recordCompare_follows (key first) (key other)).step
        intro compared same
        rw [cons_merge_cons, ← same]
        by_cases greater : compare (key first) (key other) = .gt
        · have order : keyOrder key first other = false := by simp [keyOrder, greater]
          simp only [greater, ne_eq, not_true_eq_false, ↓reduceIte, order, Bool.false_eq_true]
          apply (ih (first :: left) right (by simp only [length_cons] at exact' ⊢; omega)).step
          intro after same
          rw [← same]
          exact returns _
        · have order : keyOrder key first other = true := by simp [keyOrder, greater]
          simp only [ne_eq, greater, not_false_eq_true, ↓reduceIte, order]
          apply (ih left (other :: right) (by simp only [length_cons] at exact' ⊢; omega)).step
          intro after same
          rw [← same]
          exact returns _

theorem mergePass_follows {width : Nat} (positive : 0 < width) (bound : Nat) (indices : List Nat)
    (enough : indices.length < bound) : Follows input decoder (mergePass key width bound indices)
      (some (Order.mergeNeighbours (keyOrder key) width bound indices, decoder.rest)) := by
  induction bound generalizing decoder indices with
  | zero => omega
  | succ bound ih =>
    cases indices with
    | nil => exact returns []
    | cons index more =>
      apply (mergeRuns_follows _ _ _ rfl).step
      intro merged same
      rw [← same]
      -- What the two runs took is twice the width, or everything.
      have dropped : (index :: more).drop (((index :: more).take width).length +
          (((index :: more).drop width).take width).length) = (index :: more).drop (2 * width) := by
        rw [length_take, length_take, length_drop]
        rcases Nat.lt_or_ge (index :: more).length (2 * width) with short | long
        · rw [drop_eq_nil_of_le (by omega), drop_eq_nil_of_le (Nat.le_of_lt short)]
        · congr 1
          omega
      rw [dropped]
      have shorter : ((index :: more).drop (2 * width)).length < bound := by
        rw [length_drop]
        simp only [length_cons] at enough ⊢
        omega
      apply (ih _ shorter).step
      intro after same
      rw [← same]
      exact returns _

theorem mergePasses_follows {width : Nat} (positive : 0 < width) (bound : Nat) (indices : List Nat)
    (enough : indices.length < width + bound) (some' : 0 < bound) : Follows input decoder (mergePasses key bound width indices)
      (some (Order.bottomUp (keyOrder key) bound width indices, decoder.rest)) := by
  induction bound generalizing decoder width indices with
  | zero => omega
  | succ bound ih =>
    unfold mergePasses Order.bottomUp
    split
    · apply (mergePass_follows positive _ indices (Nat.lt_succ_self _)).step
      intro after same
      rw [← same]
      have length := (@Order.mergeNeighbours_perm _ (keyOrder key) width indices (indices.length + 1)).length_eq
      apply ih
      · omega
      · rw [length]
        omega
      · omega
    · exact returns _

/-- The positions in the order of their keys. -/
theorem sortedRecordIndices_follows (length : Nat) : ∃ indices : List Nat, indices.Perm (range length) ∧
    indices.Pairwise (keyOrder key · ·) ∧
    ∀ decoder : JsonDecoder, Follows input decoder (sortedRecordIndices length key) (some (indices, decoder.rest)) := by
  have workspace : ∀ decoder : JsonDecoder, Follows input decoder (recordWorkspace length) (some ((), decoder.rest)) := by
    intro decoder
    apply checkCancel_follows.step
    intro checked same
    rw [← same]
    exact retainCollectionBytes_follows _
  by_cases few : length < 2
  · refine ⟨range length, List.Perm.refl _, ?_, ?_⟩
    · have cases : length = 0 ∨ length = 1 := by omega
      rcases cases with rfl | rfl <;> simp
    · intro decoder
      apply (workspace decoder).step
      intro first same
      rw [← same]
      apply (forM_visit_follows _).step
      intro visited same
      rw [← same, if_pos few]
      exact returns _
  · have spec := @Order.bottomUp_spec _ (keyOrder key) 1 (range length) keyOrder_trans keyOrder_total Nat.one_pos
      (Order.inRuns_one _) (length + 1) (by rw [length_range]; omega)
    refine ⟨_, spec.1, spec.2, ?_⟩
    intro decoder
    apply (workspace decoder).step
    intro first same
    rw [← same]
    apply (forM_visit_follows _).step
    intro visited same
    rw [← same, if_neg few]
    apply (workspace visited).step
    intro second same
    rw [← same]
    apply (forM_visit_follows _).step
    intro visited same
    rw [← same]
    exact mergePasses_follows Nat.one_pos _ _ (by rw [length_range]; omega) (Nat.succ_pos _)

/-! ## Neighbours -/

theorem bytes_injective {first second : List Char} (same : bytes first = bytes second) : first = second := by
  have decoded := congrArg Text.decode same
  rw [Text.decode_bytes, Text.decode_bytes] at decoded
  exact Option.some.inj decoded

theorem checkNeighbours_follows (indices : List Nat) : Follows input decoder (checkNeighbours keys indices)
    (if (indices.map fun index => keys.getD index []).IsChain (· ≠ ·) then some ((), decoder.rest) else none) := by
  induction indices generalizing decoder with
  | nil => exact returns ()
  | cons first more ih =>
    cases more with
    | nil => exact returns ()
    | cons second more =>
      apply (recordCompare_follows _ _).step
      intro compared same
      have chained : ((first :: second :: more).map fun index => keys.getD index []).IsChain (· ≠ ·) ↔
          keys.getD first [] ≠ keys.getD second [] ∧
            ((second :: more).map fun index => keys.getD index []).IsChain (· ≠ ·) := isChain_cons_cons
      rw [if_congr chained rfl rfl]
      by_cases repeated : keys.getD first [] = keys.getD second []
      · have equal : compare (bytes (keys.getD first [])) (bytes (keys.getD second [])) = .eq := by
          rw [repeated]
          exact Std.ReflOrd.compare_self
        rw [if_pos equal, if_neg (fun both => both.1 repeated)]
        exact Follows.rejected
      · have order : compare (bytes (keys.getD first [])) (bytes (keys.getD second [])) ≠ .eq := by
          intro equal
          exact repeated (bytes_injective (Std.LawfulEqOrd.eq_of_compare equal))
        have rest : keys.getD first [] ≠ keys.getD second [] ∧
            ((second :: more).map fun index => keys.getD index []).IsChain (· ≠ ·) ↔
              ((second :: more).map fun index => keys.getD index []).IsChain (· ≠ ·) := and_iff_right repeated
        rw [if_congr rest rfl rfl, if_neg order, ← same]
        exact ih

/-- In sorted order equal keys are neighbours. -/
theorem nodup_iff_isChain {keys : List (List Char)}
    (sorted : keys.Pairwise fun first second => (compare (bytes first) (bytes second)).isLE) :
    keys.Nodup ↔ keys.IsChain (· ≠ ·) := by
  constructor
  · intro distinct
    exact List.Pairwise.isChain distinct
  · intro chain
    induction keys with
    | nil => exact nodup_nil
    | cons first more ih =>
      obtain ⟨below, sorted⟩ := pairwise_cons.mp sorted
      cases more with
      | nil => exact nodup_singleton first
      | cons second =>
        obtain ⟨different, chain⟩ := isChain_cons_cons.mp chain
        refine nodup_cons.mpr ⟨?_, ih sorted chain⟩
        intro member
        rcases mem_cons.mp member with same | later
        · exact different same
        · have up := below second mem_cons_self
          have down := (pairwise_cons.mp sorted).1 first later
          have equal := Std.OrientedCmp.isLE_antisymm up down
          exact different (bytes_injective (Std.LawfulEqOrd.eq_of_compare equal))

/-- Objects are refused exactly when a key is repeated. -/
theorem distinctKeys_follows : Follows input decoder
    (do checkNeighbours keys (← sortedRecordIndices keys.length fun index => bytes (keys.getD index [])))
    (if keys.Nodup then some ((), decoder.rest) else none) := by
  obtain ⟨indices, perm, sorted, follows⟩ :=
    @sortedRecordIndices_follows β input (fun index => bytes (keys.getD index [])) keys.length
  apply (follows decoder).step
  intro after same
  have listed : (range keys.length).map (fun index => keys.getD index []) = keys := by
    apply ext_getElem
    · simp
    · intro index _ bound
      simp [List.getElem?_eq_getElem bound]
  have permuted := perm.map fun index => keys.getD index []
  rw [listed] at permuted
  have ordered : (indices.map fun index => keys.getD index []).Pairwise
      fun first second => (compare (bytes first) (bytes second)).isLE := by
    rw [pairwise_map]
    apply sorted.imp
    intro first second order
    rw [keyOrder_eq_isLE] at order
    exact order
  have neighbours := @checkNeighbours_follows β input after keys indices
  rw [same, if_congr (permuted.nodup_iff.symm.trans (nodup_iff_isChain ordered)).symm rfl rfl] at neighbours
  exact neighbours

end Keys

end Opaal.Runtime.JsonDecoder
