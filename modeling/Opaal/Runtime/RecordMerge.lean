import Opaal.Runtime.RecordAgreement

/-!
# Merging records

Once sorted, a replaced entry and its replacement are neighbours.  The replacement is stored where
the replaced entry stood, and its own place stays empty.
-/

namespace Opaal.Runtime

open Opaal.Machine List
open Opaal.Syntax (Span)
open ListOperations (ListInput ListState Interrupted)
open Evaluation
open Evaluation.Runs (concludes)
open List (getElem?_append_left getElem?_append_right getElem?_eq_getElem getElem?_inj getElem?_map getElem?_set_ne idxOf)
open Opaal.Order
open Prod (fst)

variable {F C : Type}

section Rules

variable {reads : ListInput} {state : ListState} {free : Prop} {length : Nat} {refused : String → String → Prop} {span : Span}
  {operation : String} {keys : List String} {boundary : Nat}

/-! ## Winners -/

/-- Equal keys stand on both sides of a boundary. -/
def Paired (keys : List String) (boundary : Nat) : Prop :=
  ∀ first second : Nat, first < second → second < keys.length → keys[first]? = keys[second]? → first < boundary ∧ boundary ≤ second

/-- What is stored at a position, among some: nothing when an earlier one has the key, a later one
that has it, or itself when it is alone. -/
def Wins (keys : List String) (positions : List Nat) (position : Nat) : Option Nat → Prop
  | none => ∃ earlier ∈ positions, earlier < position ∧ keys[earlier]? = keys[position]?
  | some winner => (winner = position ∧ ∀ other ∈ positions, keys[other]? = keys[position]? → other = position) ∨
      (winner ∈ positions ∧ position < winner ∧ keys[winner]? = keys[position]?)

variable {positions : List Nat} {position : Nat} {winners : List (Option Nat)}

/-- More positions with other keys change nothing. -/
theorem Wins.cons {another : Nat} {winner : Option Nat} (wins : Wins keys positions position winner)
    (different : keys[another]? ≠ keys[position]?) : Wins keys (another :: positions) position winner := by
  cases winner with
  | none =>
    obtain ⟨earlier, listed, before, same⟩ := wins
    exact ⟨earlier, mem_cons_of_mem _ listed, before, same⟩
  | some =>
    rcases wins with ⟨itself, alone⟩ | ⟨listed, later, same⟩
    · refine .inl ⟨itself, ?_⟩
      intro other listed same
      rcases mem_cons.mp listed with rfl | listed
      · exact absurd same different
      · exact alone other listed same
    · exact .inr ⟨mem_cons_of_mem _ listed, later, same⟩

/-- What is known after the winners at some positions were stored. -/
structure Stored (keys : List String) (positions : List Nat) (before : List (Option Nat)) (retained : Nat)
    (result : List (Option Nat) × Nat) : Prop where
  length : result.1.length = before.length
  retained : result.2 ≤ retained + positions.length
  others : ∀ position, position ∉ positions → result.1[position]? = before[position]?
  winners : ∀ position ∈ positions, ∃ winner, result.1[position]? = some winner ∧ Wins keys positions position winner

theorem storeWinner_runs {winner : Nat} (inside : position < winners.length) :
    Runs (evaluation reads free length refused) (storeWinner winners position winner) reads state
      fun result _ => result = winners.set position (some winner) := by
  unfold storeWinner
  rw [if_pos inside]
  exact .pure rfl

theorem Precedes.irrefl (precedes : Precedes keys position position) : False :=
  Nat.lt_irrefl _ (precedes.before rfl)

theorem selectWinners_runs {retained : Nat} (paired : Paired keys boundary) (ordered : positions.Pairwise (Precedes keys))
    (inside : ∀ position ∈ positions, position < keys.length) (sized : winners.length = keys.length)
    (fresh : ∀ position ∈ positions, winners[position]? = some none) :
    Runs (evaluation reads free length refused) (selectWinners span keys boundary positions winners retained) reads state
      fun result _ => Stored keys positions winners retained result := by
  induction positions using List.twoStepInduction generalizing winners retained state with
  | nil => exact .pure ⟨rfl, Nat.le_refl _, fun _ _ => rfl, fun _ => nofun⟩
  | singleton first =>
    have bound := inside first mem_cons_self
    apply visited
    intro after
    refine (storeWinner_runs (by omega)).bind ?_
    rintro _ _ _ rfl
    refine .pure ⟨length_set, Nat.le_refl _, ?_, ?_⟩
    · intro position other
      rw [mem_singleton] at other
      exact getElem?_set_ne (Ne.symm other)
    · intro position listed
      rw [mem_singleton] at listed
      subst listed
      refine ⟨some position, List.getElem?_set_self (by omega), .inl ⟨rfl, ?_⟩⟩
      intro other listed _
      exact mem_singleton.mp listed
  | cons_cons first second more ih ih' =>
    obtain ⟨below, ordered'⟩ := pairwise_cons.mp ordered
    obtain ⟨below', ordered''⟩ := pairwise_cons.mp ordered'
    have bound := inside first mem_cons_self
    have bound' := inside second (mem_cons_of_mem _ mem_cons_self)
    have left := getElem?_eq_getElem bound
    have right := getElem?_eq_getElem bound'
    have absent : first ∉ second :: more := fun listed => (below first listed).irrefl
    have absent' : second ∉ more := fun listed => (below' second listed).irrefl
    have kept (winner : Nat) (position : Nat) (listed : position ∈ second :: more) :
        (winners.set first (some winner))[position]? = some none := by
      have different : first ≠ position := by
        rintro rfl
        exact absent listed
      rw [getElem?_set_ne different]
      exact fresh position (mem_cons_of_mem _ listed)
    apply visited
    intro after
    refine (index_runs left).bind ?_
    rintro _ _ _ rfl
    refine (index_runs right).bind ?_
    rintro _ _ _ rfl
    refine (recordCompare_runs _ _).bind ?_
    rintro _ _ _ rfl
    by_cases equal : keys[first] = keys[second]
    · have same : keys[first]? = keys[second]? := by rw [left, right, equal]
      have before := (below second mem_cons_self).before same
      have sides := paired first second before bound' same
      rw [if_pos (compare_utf8_eq.mpr equal), if_pos sides]
      refine (storeWinner_runs (by omega)).bind ?_
      rintro _ _ _ rfl
      refine (ih ordered'' (fun position listed => inside position (by simp [listed])) (by rw [length_set, sized])
        fun position listed => kept second position (mem_cons_of_mem _ listed)).mono ?_
      intro result _ _ stored
      -- A third position with the key would be behind the boundary and before it.
      have third : ∀ position ∈ more, keys[second]? ≠ keys[position]? := by
        intro position listed same'
        have later := (below' position listed).before same'
        have sides' := paired second position later (inside position (by simp [listed])) same'
        omega
      refine ⟨by rw [stored.length, length_set], by have := stored.retained; simp only [length_cons]; omega, ?_, ?_⟩
      · intro position other
        rw [mem_cons, mem_cons, not_or, not_or] at other
        rw [stored.others position other.2.2, getElem?_set_ne (Ne.symm other.1)]
      · intro position listed
        rcases mem_cons.mp listed with rfl | listed
        · refine ⟨some second, ?_, .inr ⟨by simp, before, same.symm⟩⟩
          rw [stored.others position fun later => absent (mem_cons_of_mem _ later)]
          exact List.getElem?_set_self (by omega)
        · rcases mem_cons.mp listed with rfl | listed'
          · refine ⟨none, ?_, ⟨first, mem_cons_self, before, same⟩⟩
            rw [stored.others position absent']
            exact kept position position listed
          · obtain ⟨winner, found, wins⟩ := stored.winners position listed'
            exact ⟨winner, found, (wins.cons (third position listed')).cons (by rw [same]; exact third position listed')⟩
    · have different : keys[first]? ≠ keys[second]? := by
        rw [left, right, ne_eq, Option.some.injEq]
        exact equal
      have apart : ∀ position ∈ second :: more, keys[first]? ≠ keys[position]? := by
        intro position listed
        rcases mem_cons.mp listed with rfl | later
        · exact different
        · exact (below second mem_cons_self).apart (below' position later) different
      rw [if_neg fun same => equal (compare_utf8_eq.mp same)]
      refine (storeWinner_runs (by omega)).bind ?_
      rintro _ _ _ rfl
      refine (ih' second ordered' (fun position listed => inside position (mem_cons_of_mem _ listed))
        (by rw [length_set, sized]) (kept first)).mono ?_
      intro result _ _ stored
      refine ⟨by rw [stored.length, length_set], by have := stored.retained; simp only [length_cons] at this ⊢; omega, ?_, ?_⟩
      · intro position other
        rw [mem_cons, not_or] at other
        rw [stored.others position other.2, getElem?_set_ne (Ne.symm other.1)]
      · intro position listed
        rcases mem_cons.mp listed with rfl | listed
        · refine ⟨some position, ?_, .inl ⟨rfl, ?_⟩⟩
          · rw [stored.others position absent]
            exact List.getElem?_set_self (by omega)
          · intro other listed same
            rcases mem_cons.mp listed with rfl | listed
            · rfl
            · exact absurd same.symm (apart other listed)
        · obtain ⟨winner, found, wins⟩ := stored.winners position listed
          exact ⟨winner, found, wins.cons (apart position listed)⟩

/-! ## The merged entries -/

section Entries

variable {left right entries output : List (String × Value F C)}

theorem keys_getElem {position : Nat} {entry : String × Value F C} (listed : entries[position]? = some entry) :
    (entries.map fst)[position]? = some entry.1 := by
  rw [getElem?_map, listed]
  rfl

/-- Keys are unique on each side. -/
theorem paired_append (uniqueLeft : (left.map fst).Nodup) (uniqueRight : (right.map fst).Nodup) :
    Paired ((left ++ right).map fst) left.length := by
  intro first second before inside same
  rw [map_append] at inside same
  rw [length_append, length_map, length_map] at inside
  by_contra together
  rcases Nat.lt_or_ge second left.length with low | high
  · rw [getElem?_append_left (by rw [length_map]; omega), getElem?_append_left (by rw [length_map]; omega)] at same
    have := (getElem?_inj (by rw [length_map]; omega) uniqueLeft).mp same
    omega
  · rw [getElem?_append_right (by rw [length_map]; omega), getElem?_append_right (by rw [length_map]; omega),
      length_map] at same
    have := (getElem?_inj (by rw [length_map]; omega) uniqueRight).mp same
    omega

variable {winners : List (Option Nat)} {value : Value F C}

/-- What the winners put out, position by position. -/
theorem winners_entries {positions : List Nat} (uniqueLeft : (left.map fst).Nodup)
    (uniqueRight : (right.map fst).Nodup) (perm : positions.Perm (List.range (left ++ right).length))
    (sized : winners.length = (left ++ right).length)
    (wins : ∀ position ∈ positions, ∃ winner, winners[position]? = some winner ∧ Wins ((left ++ right).map fst) positions position winner) :
    winners.map (fun winner => winner.bind fun found => (left ++ right)[found]?) =
      left.map (fun entry => some (overwritten right entry)) ++
        right.map fun entry => if entry.1 ∈ left.map fst then none else some entry := by
  have paired := paired_append uniqueLeft uniqueRight
  have members (position : Nat) : position ∈ positions ↔ position < (left ++ right).length := by
    rw [perm.mem_iff, mem_range]
  apply ext_getElem?
  intro position
  rw [getElem?_map]
  rcases Nat.lt_or_ge position (left ++ right).length with inside | outside
  · obtain ⟨winner, found, won⟩ := wins position ((members position).mpr inside)
    rw [found, Option.map_some]
    rcases Nat.lt_or_ge position left.length with low | high
    · rw [getElem?_append_left (by simpa using low), getElem?_map, getElem?_eq_getElem low, Option.map_some, Option.some.injEq]
      have here : (left ++ right)[position]? = some left[position] := by
        rw [getElem?_append_left low, getElem?_eq_getElem low]
      have isKey := keys_getElem here
      cases winner with
      | none =>
        obtain ⟨earlier, _, before, same⟩ := won
        have := paired earlier position before (by rw [length_map]; exact inside) same
        omega
      | some winner =>
        rw [Option.bind_some]
        rcases won with ⟨rfl, alone⟩ | ⟨listed, later, same⟩
        · rw [here, Order.overwritten_of_not_mem]
          intro replaced
          obtain ⟨place, bound, isKey'⟩ := mem_iff_getElem.mp replaced
          rw [length_map] at bound
          have there : ((left ++ right).map fst)[left.length + place]? = some left[winner].1 := by
            rw [map_append, getElem?_append_right (by rw [length_map]; omega), length_map, Nat.add_sub_cancel_left,
              getElem?_eq_getElem (by rw [length_map]; exact bound), isKey']
          have := alone (left.length + place) ((members _).mpr (by rw [length_append]; omega)) (there.trans isKey.symm)
          omega
        · have bound := (members winner).mp listed
          have sides := paired position winner later (by rw [length_map]; exact bound) same.symm
          obtain ⟨entry, there⟩ : ∃ entry, (left ++ right)[winner]? = some entry := ⟨_, getElem?_eq_getElem bound⟩
          have sameKey : entry.1 = left[position].1 := by
            rw [keys_getElem there, isKey, Option.some.injEq] at same
            exact same
          rw [there]
          rw [getElem?_append_right sides.2] at there
          rw [overwritten, ← sameKey, Order.lookup_getElem uniqueRight there]
          rfl
    · have bound : position - left.length < right.length := by
        rw [length_append] at inside
        omega
      rw [getElem?_append_right (by simpa using high), length_map, getElem?_map, getElem?_eq_getElem bound,
        Option.map_some, Option.some.injEq]
      have here : (left ++ right)[position]? = some right[position - left.length] := by
        rw [getElem?_append_right high, getElem?_eq_getElem bound]
      have isKey := keys_getElem here
      generalize right[position - left.length] = entry at here isKey ⊢
      cases winner with
      | none =>
        obtain ⟨earlier, _, before, same⟩ := won
        have sides := paired earlier position before (by rw [length_map]; exact inside) same
        have present : entry.1 ∈ left.map fst := by
          rw [isKey, map_append, getElem?_append_left (by rw [length_map]; exact sides.1)] at same
          exact mem_of_getElem? same
        rw [if_pos present]
        rfl
      | some winner =>
        rcases won with ⟨rfl, alone⟩ | ⟨listed, later, same⟩
        · have absent : entry.1 ∉ left.map fst := by
            intro replaced
            obtain ⟨place, bound', isKey'⟩ := mem_iff_getElem.mp replaced
            have low := bound'
            rw [length_map] at low
            have there : ((left ++ right).map fst)[place]? = some entry.1 := by
              rw [map_append, getElem?_append_left bound', getElem?_eq_getElem bound', isKey']
            have := alone place ((members _).mpr (by rw [length_append]; omega)) (there.trans isKey.symm)
            omega
          rw [if_neg absent]
          exact here
        · have bound' := (members winner).mp listed
          have sides := paired position winner later (by rw [length_map]; exact bound') same.symm
          omega
  · rw [List.getElem?_eq_none (by omega), List.getElem?_eq_none]
    · rfl
    · rw [length_append] at outside
      rw [length_append, length_map, length_map]
      exact outside

theorem copyWinners_runs (inside : ∀ found, some found ∈ winners → found < entries.length) :
    Runs (evaluation reads free length refused) (copyWinners span entries winners output) reads state fun result _ =>
      result = output ++ winners.filterMap fun winner => winner.bind fun found => entries[found]? := by
  induction winners generalizing output state with
  | nil => exact .pure (append_nil _).symm
  | cons winner winners ih =>
    have others : ∀ found, some found ∈ winners → found < entries.length := fun found listed => inside found (mem_cons_of_mem _ listed)
    apply visited
    intro after
    cases winner with
    | none => exact ih others
    | some found =>
      have entry := getElem?_eq_getElem (inside found mem_cons_self)
      refine (index_runs entry).bind ?_
      rintro _ _ _ rfl
      refine copyRecordEntry_runs.bind ?_
      rintro _ _ _ rfl
      refine (ih others).mono ?_
      rintro _ _ _ rfl
      rw [filterMap_cons_some (by rw [Option.bind_some]; exact entry), append_assoc]
      rfl

theorem filterMap_unless {α : Type} (drops : α → Prop) [DecidablePred drops] (items : List α) :
    (items.map fun item => if drops item then none else some item).filterMap id = items.filter fun item => ¬drops item := by
  induction items with
  | nil => rfl
  | cons item _ ih =>
    rw [map_cons, filter_cons]
    by_cases dropped : drops item
    · rw [if_pos dropped, filterMap_cons_none rfl, ih, if_neg (by simpa using dropped)]
    · rw [if_neg dropped, @filterMap_cons_some _ _ id _ _ item rfl, ih, if_pos (by simpa using dropped)]

theorem filterMap_map_id {α β : Type} (f : α → Option β) (items : List α) : items.filterMap f = (items.map f).filterMap id := by
  rw [filterMap_map]
  rfl

theorem mergeRecords_runs (uniqueLeft : (left.map fst).Nodup) (uniqueRight : (right.map fst).Nodup)
    (fits : 2 * (left ++ right).length ≤ length) :
    Runs (evaluation reads free length refused) (mergeRecords span left right) reads state fun value _ =>
      value = .record (right.foldl (fun entries entry => Order.assign entry entries) left) := by
  have keyed : ((left ++ right).map fst).length = (left ++ right).length := length_map _
  unfold mergeRecords
  dsimp only
  split
  · next overflows =>
    refine .throw (.inr (.inr (Nat.le_trans overflows ?_)))
    calc (left ++ right).length ≤ length := by omega
      _ = length * 1 := (Nat.mul_one _).symm
      _ ≤ length * max 16 reads.sizeOfValue := Nat.mul_le_mul_left _ (by omega)
  · refine (sortedRecordIndices_runs (by omega)).bind ?_
    intro sorted _ _ ⟨perm, ordered⟩
    have members : ∀ position ∈ sorted, position < ((left ++ right).map fst).length := fun position listed =>
      mem_range.mp (perm.mem_iff.mp listed)
    refine (indexWorkspace_runs (by omega)).bind ?_
    intro _ _ _ _
    refine (visitEach_runs _).bind ?_
    intro _ _ _ _
    have fresh : ∀ position ∈ sorted, (List.replicate (left ++ right).length (none : Option Nat))[position]? = some none := by
      intro position listed
      have inside := members position listed
      rw [keyed] at inside
      rw [List.getElem?_replicate, if_pos inside]
    refine (selectWinners_runs (paired_append uniqueLeft uniqueRight) ordered members (by rw [length_replicate, keyed]) fresh).bind ?_
    intro (winners, retained) _ _ stored
    have few := stored.retained
    rw [Nat.zero_add, perm.length_eq, length_range, keyed] at few
    refine (entryWorkspace_runs (by omega)).bind ?_
    intro _ _ _ _
    have sized : winners.length = (left ++ right).length := by rw [stored.length, length_replicate]
    have inside : ∀ found, some found ∈ winners → found < (left ++ right).length := by
      intro found listed
      obtain ⟨position, bound, isWinner⟩ := mem_iff_getElem.mp listed
      have place : position ∈ sorted := perm.mem_iff.mpr (mem_range.mpr (by omega))
      obtain ⟨_, there, won⟩ := stored.winners position place
      rw [getElem?_eq_getElem bound, isWinner, Option.some.injEq] at there
      subst there
      rw [← keyed]
      rcases won with ⟨rfl, _⟩ | ⟨listed', _⟩
      · exact members found place
      · exact members found listed'
    refine (copyWinners_runs inside).bind ?_
    rintro _ _ _ rfl
    refine .pure ?_
    rw [keyed] at perm
    rw [nil_append, filterMap_map_id, winners_entries uniqueLeft uniqueRight perm sized stored.winners,
      Order.foldl_assign uniqueLeft uniqueRight, filterMap_append, filterMap_map, filterMap_unless]
    have kept : left.filterMap (id ∘ fun entry => some (overwritten right entry)) = left.map (overwritten right) :=
      congrFun filterMap_eq_map' left
    rw [kept]

/-! ## Selecting -/

/-- Why a selection is refused: a request is not a string, a key is requested twice, or it is missing. -/
def Refused (operation : String) (input : List (String × Value F C)) (requested : List (Value F C))
    (refusing message : String) : Prop :=
  refusing = operation ∧
    ((message = "requested keys must be Strings" ∧ ∃ value ∈ requested, ∀ key, value ≠ .string key) ∨
      ∃ keys : List String, requested = keys.map .string ∧
        ((∃ (first second : Nat) (key : String), first < second ∧ keys[first]? = some key ∧ keys[second]? = some key ∧
            message = "repeated requested key " ++ recordKeyExcerpt key) ∨
          (keys.Nodup ∧ ∃ key ∈ keys, key ∉ input.map fst ∧ message = "missing requested key " ++ recordKeyExcerpt key)))

/-- The requested fields in the order of the requests. -/
def Selects (input : List (String × Value F C)) (requested : List (Value F C))
    (value : Value F C) : Prop :=
  ∃ keys fields, requested = keys.map .string ∧ keys.Nodup ∧ selected input keys = some fields ∧ value = .record fields

theorem select_runs {requested : List (Value F C)} (unique : (left.map fst).Nodup)
    (fits : 2 * (left.length + requested.length) ≤ length) :
    Runs (evaluation reads free length (Refused operation left requested)) (recordOperation operation span left (.select requested)) reads
      state fun value _ => Selects left requested value := by
  refine checkCancel_runs.bind ?_
  intro _ _ _ _
  refine (requestedKeys_runs fun notString => ⟨rfl, .inl ⟨rfl, notString⟩⟩).bind ?_
  rintro keys _ _ rfl
  rw [length_map] at fits
  have sized : (left.map fst).length = left.length := length_map _
  by_cases empty : keys = []
  · subst empty
    exact .pure ⟨[], [], rfl, nodup_nil, rfl, rfl⟩
  · rw [if_neg empty]
    refine (sortedRecordIndices_runs (by omega)).bind ?_
    intro sorted _ _ ⟨perm, ordered⟩
    have inside : ∀ position ∈ sorted, position < keys.length := fun position listed => mem_range.mp (perm.mem_iff.mp listed)
    refine (checkRequests_runs inside ordered ?_).bind ?_
    · intro first second key before isKey isKey'
      exact ⟨rfl, .inr ⟨keys, rfl, .inl ⟨first, second, key, before, isKey, isKey', rfl⟩⟩⟩
    · intro _ _ _ distinct
      have nodup := nodup_of_distinct perm distinct
      refine (sortedRecordIndices_runs (by omega)).bind ?_
      intro sorted _ _ ⟨perm', ordered'⟩
      refine (entryWorkspace_runs (by omega)).bind ?_
      intro _ _ _ _
      refine (selectEntries_runs unique perm' ordered' ?_).bind ?_
      · intro key listed missing
        exact ⟨rfl, .inr ⟨keys, rfl, .inr ⟨nodup, key, listed, missing, rfl⟩⟩⟩
      · intro result _ _ ⟨fields, found, same⟩
        rw [nil_append] at same
        exact .pure ⟨keys, fields, rfl, nodup, found, by rw [same]⟩

/-! ## One key -/

theorem copyEntries_runs {position : Option Nat} (place : Nat) :
    Runs (evaluation reads free length refused) (copyEntries span position value place entries output) reads state fun result _ =>
      result = output ++ entries.mapIdx fun offset entry => (entry.1, if position = some (place + offset) then value else entry.2) := by
  induction entries generalizing output state place with
  | nil => exact .pure (append_nil _).symm
  | cons _ _ ih =>
    refine copyRecordEntry_runs.bind ?_
    rintro _ _ _ rfl
    refine (ih (place + 1)).mono ?_
    rintro _ _ _ rfl
    simp [Nat.add_assoc, Nat.add_comm 1]

theorem assign_at {position : Nat} {key : String} {old : Value F C} (unique : (entries.map fst).Nodup)
    (listed : entries[position]? = some (key, old)) :
    Order.assign (key, value) entries =
      entries.mapIdx fun offset entry => (entry.1, if some position = some (0 + offset) then value else entry.2) := by
  have present : key ∈ entries.map fst := mem_of_getElem? (keys_getElem listed)
  have inside := (List.getElem?_eq_some_iff.mp (keys_getElem listed)).1
  rw [Order.assign_of_mem present unique]
  apply ext_getElem?
  intro place
  rw [getElem?_map, List.getElem?_mapIdx]
  cases there : entries[place]? with
  | none => rfl
  | some entry =>
    have isKey : entry.1 = key ↔ position = place := by
      rw [← getElem?_inj inside unique, keys_getElem listed, keys_getElem there, Option.some.injEq, eq_comm]
    simp only [Option.map_some, Option.some.injEq, Nat.zero_add]
    by_cases same : position = place
    · rw [if_pos (isKey.mpr same), if_pos same, isKey.mpr same]
    · rw [if_neg fun equal => same (isKey.mp equal), if_neg same]

theorem position_cases (key : String) (entries : List (String × Value F C)) :
    ((entries.map fst).idxOf? key = none ∧ key ∉ entries.map fst) ∨
      ∃ position value, (entries.map fst).idxOf? key = some position ∧ entries[position]? = some (key, value) := by
  cases found : (entries.map fst).idxOf? key with
  | none => exact .inl ⟨rfl, idxOf?_eq_none_iff.mp found⟩
  | some position =>
    obtain ⟨inside, isKey, _⟩ := idxOf?_eq_some_iff.mp found
    rw [length_map] at inside
    rw [getElem_map] at isKey
    exact .inr ⟨position, entries[position].2, rfl, by rw [getElem?_eq_getElem inside, ← isKey]⟩

theorem copyKeys_runs {copied : List (Value F C)} :
    Runs (evaluation reads free length refused) (copyKeys span keys copied) reads state fun result _ =>
      result = copied ++ keys.map .string := by
  induction keys generalizing copied state with
  | nil => exact .pure (append_nil _).symm
  | cons key _ ih =>
    apply visited
    intro after
    refine (retainRecordKey_runs key).bind ?_
    intro _ _ _ _
    refine retainRecordItem_runs.bind ?_
    intro _ _ _ _
    refine ih.mono ?_
    rintro _ _ _ rfl
    rw [append_assoc]
    rfl

/-- What each operation answers. -/
def RecordOperation.Answers (input : List (String × Value F C)) : RecordOperation F C → Value F C → Prop
  | .keys, value => value = .list ((input.map fst).map .string)
  | .has key, value => value = .bool (decide (key ∈ input.map fst))
  | .getOr key default, value => value = (input.lookup key).getD default
  | .set key new, value => value = .record (Order.assign (key, new) input)
  | .select requested, value => Selects input requested value
  | .merge right, value => value = .record (right.foldl (fun entries entry => Order.assign entry entries) input)

/-- How many elements it makes room for, and whether it can be refused. -/
def RecordOperation.size : RecordOperation F C → Nat
  | .select requested => requested.length
  | .merge right => right.length
  | _ => 1

def RecordOperation.MayRefuse (operation : String) (input : List (String × Value F C)) :
    RecordOperation F C → String → String → Prop
  | .select requested => Refused operation input requested
  | _ => fun _ _ => False

def RecordOperation.Unique : RecordOperation F C → Prop
  | .merge right => (right.map fst).Nodup
  | _ => True

theorem recordOperation_runs {work : RecordOperation F C} (uniqueLeft : (left.map fst).Nodup) (uniqueRight : work.Unique)
    (fits : 2 * (left.length + work.size) ≤ length) :
    Runs (evaluation reads free length (work.MayRefuse operation left)) (recordOperation operation span left work) reads state
      fun value _ => work.Answers left value := by
  cases work with
  | select => exact select_runs uniqueLeft fits
  | merge =>
    refine checkCancel_runs.bind ?_
    intro _ _ _ _
    exact mergeRecords_runs uniqueLeft uniqueRight (by rw [length_append]; exact fits)
  | keys =>
    refine checkCancel_runs.bind ?_
    intro _ _ _ _
    refine .reads (rfl : _ = EStateM.Result.ok reads _) ?_
    refine (recordWorkspace_runs (Nat.mul_le_mul (by omega) (Nat.le_max_right _ _))).bind ?_
    intro _ _ _ _
    refine copyKeys_runs.bind ?_
    rintro _ _ _ rfl
    exact .pure rfl
  | has key =>
    refine checkCancel_runs.bind ?_
    intro _ _ _ _
    refine (recordPosition_runs key).bind ?_
    rintro _ _ _ rfl
    refine .pure ?_
    rcases position_cases key left with ⟨absent, missing⟩ | ⟨position, value, found, listed⟩
    · simp only [absent, RecordOperation.Answers, missing]
      rfl
    · have present : key ∈ left.map fst := mem_of_getElem? (keys_getElem listed)
      simp only [found, RecordOperation.Answers, present]
      rfl
  | getOr key =>
    refine checkCancel_runs.bind ?_
    intro _ _ _ _
    refine (recordPosition_runs key).bind ?_
    rintro _ _ _ rfl
    refine retainRecordItem_runs.bind ?_
    intro _ _ _ _
    refine .reads (rfl : _ = EStateM.Result.ok reads _) ?_
    refine Evaluation.retainCollectionBytes_runs.bind ?_
    intro _ _ _ _
    rcases position_cases key left with ⟨absent, missing⟩ | ⟨position, value, found, listed⟩
    · rw [absent]
      exact .pure (by rw [RecordOperation.Answers, Order.lookup_absent missing]; rfl)
    · rw [found]
      refine (index_runs listed).bind ?_
      rintro _ _ _ rfl
      exact .pure (by rw [RecordOperation.Answers, Order.lookup_getElem uniqueLeft listed]; rfl)
  | set key value =>
    refine checkCancel_runs.bind ?_
    intro _ _ _ _
    refine (recordPosition_runs key).bind ?_
    rintro _ _ _ rfl
    have one : (RecordOperation.set key value).size = 1 := rfl
    have room (count : Nat) (few : count ≤ left.length + 1) (overflows : 2 ^ 64 ≤ count) : 2 ^ 64 ≤ length * max 16 reads.sizeOfValue := by
      calc 2 ^ 64 ≤ length * 1 := by omega
        _ ≤ length * max 16 reads.sizeOfValue := Nat.mul_le_mul_left _ (by omega)
    dsimp only
    rcases position_cases key left with ⟨absent, missing⟩ | ⟨position, old, found, listed⟩
    · rw [absent, Option.isNone_none, if_pos rfl]
      split
      · next overflows => exact .throw (.inr (.inr (room _ (Nat.le_refl _) overflows)))
      · refine (entryWorkspace_runs (by omega)).bind ?_
        intro _ _ _ _
        refine (copyEntries_runs 0).bind ?_
        rintro _ _ _ rfl
        refine copyRecordEntry_runs.bind ?_
        rintro _ _ _ rfl
        refine .pure ?_
        have same : (left.mapIdx fun _ entry => entry) = left := by
          apply ext_getElem?
          simp
        rw [RecordOperation.Answers, Order.assign_of_not_mem missing]
        simp [same]
    · rw [found, Option.isNone_some, if_neg Bool.false_ne_true]
      split
      · next overflows => exact .throw (.inr (.inr (room _ (by omega) overflows)))
      · refine (entryWorkspace_runs (by omega)).bind ?_
        intro _ _ _ _
        refine (copyEntries_runs 0).bind ?_
        rintro _ _ _ rfl
        refine .pure ?_
        rw [RecordOperation.Answers, assign_at uniqueLeft listed]
        rfl

end Entries

end Rules

/-- Merging and selecting agree with assigning and looking up, and the sorted index with a linear search. -/
theorem records_agree (left right : List (String × Value F C)) (uniqueLeft : (left.map fst).Nodup)
    (uniqueRight : (right.map fst).Nodup) (operation : String) (span : Span) (reads : ListInput) (state : ListState) :
    Concludes (recordOperation operation span left (.merge right) reads state)
        (fun value => value = .record (right.foldl (fun entries entry => Order.assign entry entries) left))
        (Interrupted reads state.budget.Unlimited (2 * (left.length + right.length))) (fun _ _ => False) ∧
      ((right.foldl (fun entries entry => Order.assign entry entries) left).map fst).Nodup ∧
      (∀ requested, Concludes (recordOperation operation span left (.select requested) reads state) (Selects left requested)
        (Interrupted reads state.budget.Unlimited (2 * (left.length + requested.length))) (Refused operation left requested)) ∧
      (∀ keys fields, selected left keys = some fields → fields.map fst = keys) ∧
      ∀ key,
        Concludes ((do searchSorted span (left.map fst) (← sortedRecordIndices span (left.map fst)) key) reads state)
          (fun found => found = (left.map fst).idxOf? key) (Interrupted reads state.budget.Unlimited left.length) (fun _ _ => False) ∧
        Concludes (recordPosition span key (left.map fst) reads state) (fun found => found = (left.map fst).idxOf? key)
          (Interrupted reads state.budget.Unlimited left.length) (fun _ _ => False) := by
  refine ⟨?_, Order.nodup_foldl_assign uniqueLeft, ?_, ?_, ?_⟩
  · apply concludes
    exact @recordOperation_runs _ _ _ _ _ _ _ _ left (.merge right) uniqueLeft uniqueRight (Nat.le_refl _)
  · intro requested
    apply concludes
    exact select_runs uniqueLeft (Nat.le_refl _)
  · intro keys fields found
    exact Order.keys_selected found
  · intro key
    constructor
    · apply concludes
      refine (sortedRecordIndices_runs (Nat.le_of_eq (length_map _))).bind ?_
      intro sorted _ _ ⟨perm, ordered⟩
      refine (searchSorted_runs key perm ordered).mono ?_
      intro found _ _ indexed
      exact indexed_eq_linear key uniqueLeft found indexed
    · apply concludes
      exact recordPosition_runs key

/-- Two fields, and another value for the second one. -/
def twoFields : List (String × Value Empty Empty) := [("b", .int 1), ("a", .int 2)]

def anotherField : List (String × Value Empty Empty) := [("a", .int 3)]

theorem merges_two_fields :
    Concludes (recordOperation "std::record::merge" ⟨0, 0, 1⟩ twoFields (.merge anotherField) ListOperations.uninterrupted ListOperations.fresh)
      (fun value => value = .record (anotherField.foldl (fun entries entry => Order.assign entry entries) twoFields))
      (Interrupted ListOperations.uninterrupted ListOperations.fresh.budget.Unlimited 6) (fun _ _ => False) :=
  (records_agree twoFields anotherField (by simp [twoFields]) (by simp [anotherField]) "std::record::merge" ⟨0, 0, 1⟩
    ListOperations.uninterrupted ListOperations.fresh).1

end Opaal.Runtime
