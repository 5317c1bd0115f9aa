import Opaal.Runtime.CapsuleDelta
import Opaal.Runtime.CapsuleDecoder

/-!
# Decoding is safe for all bytes

Every reader of the capsule format stays inside the bytes, never panics and pays for its
collections before it makes them.  The invariants of the values follow the same readers: what
a constructor checked, or what a loop kept, is what a decoded value satisfies.
-/

namespace Opaal.Runtime.Capsule

open Opaal.Machine.Wire List
open Opaal.Runtime.Supervisor
open Opaal.Syntax (SourceId)

variable {F C Program α β : Type}

/-! ## Well-represented values -/

section Representation

variable (restorer : Restorer F C Program)

mutual

/-- A value the runtime's constructors could have made.  Floats, statuses, signals and durations
carry their invariants with them. -/
inductive Represented : Value F C → Prop
  | null : Represented .null
  | bool (value : Bool) : Represented (.bool value)
  | int (value : Int64) : Represented (.int value)
  | float (value : FiniteFloat) : Represented (.float value)
  | string (value : String) : Represented (.string value)
  | bytes (value : List UInt8) : Represented (.bytes value)
  | path (value : NativePath) : Represented (.path value)
  | duration (value : Duration) : Represented (.duration value)
  | byteSize (value : ByteSize) : Represented (.byteSize value)
  | list (values : List (Value F C)) (each : ∀ value ∈ values, Represented value) : Represented (.list values)
  | record (entries : List (String × Value F C)) (keys : (entries.map Prod.fst).Nodup)
      (each : ∀ entry ∈ entries, Represented entry.2) : Represented (.record entries)
  | nominalRecord (id : NominalTypeId) (typeArguments : List ValueType) (fields : List (String × Value F C))
      (names : (fields.map Prod.fst).Nodup) (each : ∀ field ∈ fields, Represented field.2) :
      Represented (.nominalRecord id typeArguments fields)
  | variant (id : NominalTypeId) (typeArguments : List ValueType) (variantName : String)
      (payload : List (Value F C)) (each : ∀ value ∈ payload, Represented value) :
      Represented (.variant id typeArguments variantName payload)
  | table (columns : List String) (rows : List (List (Value F C))) (distinct : columns.Nodup)
      (rectangular : ∀ row ∈ rows, row.length = columns.length) (each : ∀ row ∈ rows, ∀ cell ∈ row, Represented cell) :
      Represented (.table columns rows)
  | range (value : Range) : Represented (.range value)
  | status (value : Status) : Represented (.status value)
  | error (failure : F) : Represented (.error failure)
  | callable (family : CallableFamily) (callable : C) (restored : Restored callable) :
      Represented (.callable family callable)

/-- A callable restored from a definition whose captured scope is well formed. -/
inductive Restored : C → Prop
  | mk (snapshot : CallableSnapshot F C Program) (work left : Nat) (family : CallableFamily) (callable : C)
      (wellFormed : snapshot.captured.WellFormed)
      (each : ∀ frame ∈ snapshot.captured.frames, ∀ entry ∈ frame, Represented entry.2.value)
      (restores : restorer.restoreCallable snapshot work = (.ok (family, callable), left)) : Restored callable

end

/-- A scope of distinct names whose values are represented and belong to their declared types. -/
structure ScopeHolds (scope : ScopeStack F C) : Prop where
  wellFormed : scope.WellFormed
  each : ∀ frame ∈ scope.frames, ∀ entry ∈ frame, Represented restorer entry.2.value

/-- The callables read so far. -/
def TableHolds (callables : List (CallableFamily × C)) : Prop :=
  ∀ entry ∈ callables, Restored restorer entry.2

end Representation

/-! ## Constructors -/

theorem firstDuplicate_none {seen names : List String} (none : firstDuplicate seen names = none) (apart : seen.Nodup) :
    (seen ++ names).Nodup := by
  induction names generalizing seen with
  | nil => rwa [append_nil]
  | cons name names ih =>
    unfold firstDuplicate at none
    split at none
    · contradiction
    · next fresh =>
      have longer : (seen ++ [name]).Nodup := by
        rw [nodup_append]
        refine ⟨apart, nodup_singleton _, ?_⟩
        rintro old member new single rfl
        exact fresh (mem_singleton.mp single ▸ member)
      rw [← singleton_append, ← append_assoc]
      exact ih none longer

variable {value : Value F C}

theorem newRecord_ok {entries : List (String × Value F C)} (made : newRecord entries = .ok value) : value = .record entries ∧ (entries.map Prod.fst).Nodup := by
  unfold newRecord at made
  split at made
  · contradiction
  · next none =>
    cases made
    exact ⟨rfl, firstDuplicate_none none nodup_nil⟩

theorem newTable_ok {columns : List String} {rows : List (List (Value F C))}
    (made : newTable columns rows = .ok value) :
    value = .table columns rows ∧ columns.Nodup ∧ ∀ row ∈ rows, row.length = columns.length := by
  unfold newTable at made
  split at made
  · contradiction
  · next none =>
    split at made
    · contradiction
    · next narrow =>
      cases made
      refine ⟨rfl, firstDuplicate_none none nodup_nil, fun row member => ?_⟩
      have width := List.findIdx?_eq_none_iff.mp narrow row member
      simpa using width

theorem fromCapsuleBindings_holds {restorer : Restorer F C Program} {bindings : List (String × Binding F C)}
    {scope : ScopeStack F C} (each : ∀ entry ∈ bindings, Represented restorer entry.2.value)
    (built : fromCapsuleBindings bindings = .ok scope) : ScopeHolds restorer scope := by
  refine ⟨(Origin.capsule bindings scope built).wellFormed, ?_⟩
  unfold fromCapsuleBindings at built
  split at built
  · next after ran =>
    cases built
    obtain rfl := declareAll_root bindings ran
    exact forall_mem_singleton.mpr each
  · contradiction

/-! ## Primitive fields -/

theorem reads_number (count : Nat) : Reads 0 (number count) fun _ => True :=
  (reads_unsigned _ count).weaken fun _ _ => trivial

theorem reads_u8 : Reads 0 u8 fun _ => True := reads_number 1

theorem reads_u32 : Reads 0 u32 fun _ => True := reads_number 4

theorem reads_usize : Reads 0 usize fun _ => True := reads_number 4

theorem reads_bool : Reads 0 bool fun _ => True := by
  refine reads_u8.then fun tag _ => ?_
  split
  · exact .pure trivial
  · exact .pure trivial
  · exact .fail

theorem reads_u64 : Reads 0 u64 fun _ => True := (reads_number 8).then fun _ _ => .pure trivial

theorem reads_i64 : Reads 0 i64 fun _ => True := (reads_number 8).then fun _ _ => .pure trivial

theorem reads_i128 : Reads 0 i128 fun _ => True := (reads_number 16).then fun _ _ => .pure trivial

theorem reads_byteString : Reads 0 byteString fun _ => True :=
  reads_usize.then fun count _ => (reads_take _ count).weaken fun _ _ => trivial

theorem reads_text : Reads 0 text fun _ => True := by
  refine reads_byteString.then fun bytes _ => ?_
  split
  · exact .pure trivial
  · exact .fail

theorem reads_string : Reads 0 string fun _ => True := reads_text.then fun _ _ => .pure trivial

theorem reads_native : Reads 0 native fun _ => True := reads_byteString.then fun _ _ => .pure trivial

theorem Reads.optional {field : Decode α} {post : α → Prop} (reads : Reads 0 field post) :
    Reads 0 (optional field) fun found => ∀ value, found = some value → post value := by
  refine reads_bool.then fun present _ => ?_
  split
  · refine reads.then fun value holds => .pure ?_
    rintro _ ⟨⟩
    exact holds
  · exact .pure (by simp)

/-! ## Collections -/

section Collections

variable {cost : Nat} {post : β → Prop}

theorem Reads.reserved {count : Nat} {rest : Unit → Decode β} (goes : Reads 0 (rest ()) post) :
    Reads count (reserve count >>= rest) post :=
  ((reads_reserve count).bind fun _ _ => goes).mono (Nat.le_refl _) fun _ holds => holds

/-- A length is charged for when it is read. -/
theorem Reads.sized {rest : Nat → Decode β} (goes : ∀ count, Reads (cost + count) (rest count) post) :
    Reads cost (collectionLen >>= rest) post := by
  unfold collectionLen charge
  rw [bind_assoc]
  refine reads_usize.then fun count _ => ?_
  rw [bind_assoc]
  refine Reads.charge ?_
  exact goes count

variable {item : Decode α}

theorem Reads.collection {post : α → Prop} (reads : Reads 0 item post) :
    Reads 0 (collection item) fun values => ∀ value ∈ values, post value := by
  refine Reads.sized fun count => ?_
  have items := (Reads.repeat reads count).mono (Nat.le_refl _) fun _ both => both.2
  rw [Nat.zero_add]
  exact Reads.reserved items

theorem reads_readDistinct (reads : Reads 0 item fun _ => True) (clashes : List α → α → Bool) (clash : String) (count : Nat)
    (read : List α) : Reads 0 (readDistinct item clashes clash count read) fun _ => True := by
  induction count generalizing read with
  | zero => exact .pure trivial
  | succ _ ih =>
    refine reads.then fun value _ => ?_
    split
    · exact .fail
    · exact ih _

/-- Items that may not clash, with their length. -/
theorem Reads.distinct (reads : Reads 0 item fun _ => True) (clashes : List α → α → Bool) (clash : String) {count : Nat}
    {rest : List α → Decode β} (goes : ∀ values, Reads 0 (rest values) post) :
    Reads count (reserve count >>= fun _ => readDistinct item clashes clash count [] >>= rest) post :=
  Reads.reserved ((reads_readDistinct reads clashes clash count []).then fun values _ => goes values)

end Collections

open Reads (reserved sized)

/-! ## Types, statuses and errors -/

theorem reads_decodeModuleId : Reads 0 decodeModuleId fun _ => True := by
  refine reads_u8.then fun tag _ => ?_
  split
  · exact reads_native.then fun _ _ => .pure trivial
  · exact reads_string.then fun _ _ => reads_string.then fun _ _ => .pure trivial
  · exact .fail

theorem reads_decodeNominalIdentity {decodeArgument : Decode ValueType} (reads : Reads 0 decodeArgument fun _ => True) :
    Reads 0 (decodeNominalIdentity decodeArgument) fun _ => True := by
  refine reads_decodeModuleId.then fun module _ => reads_string.then fun name _ => ?_
  refine (Reads.collection reads).then fun arguments _ => ?_
  split
  · exact .fail
  · exact .pure trivial

variable (levels : Nat) (retained : RetainedSources) (restorer : Restorer F C Program)

theorem reads_decodeValueType : Reads 0 (decodeValueType levels) fun _ => True := by
  induction levels with
  | zero => exact .fail
  | succ _ ih =>
    refine reads_u8.then fun tag _ => ?_
    split
    case h_11 => exact ih.then fun _ _ => .pure trivial
    case h_19 => exact reads_string.then fun _ _ => .pure trivial
    case h_20 => exact (reads_decodeNominalIdentity ih).then fun _ _ => .pure trivial
    case h_21 => exact .fail
    all_goals exact .pure trivial

theorem reads_decodeSignal : Reads 0 decodeSignal fun _ => True := by
  refine (Reads.optional reads_i64).then fun number _ => (Reads.optional reads_string).then fun name _ => ?_
  split
  · exact .pure trivial
  · exact .fail

theorem reads_buildStatus (code : Option Int64) (signal : Option Signal) (duration : Duration) (stages : List Status) :
    Reads 0 (buildStatus code signal duration stages) fun _ => True := by
  unfold buildStatus
  split
  · split
    · exact .checked fun _ _ => trivial
    · exact .checked fun _ _ => trivial
    · exact .fail
  · split
    · exact .fail
    · exact .checked fun _ _ => trivial

theorem reads_decodeStatus : Reads 0 (decodeStatus levels) fun _ => True := by
  induction levels with
  | zero => exact .fail
  | succ _ ih =>
    refine (Reads.optional reads_i64).then fun code _ => (Reads.optional reads_decodeSignal).then fun signal _ => ?_
    refine reads_i128.then fun duration _ => (Reads.collection ih).then fun stages _ => ?_
    exact reads_buildStatus code signal _ stages

theorem reads_decodeErrorCategory (tag : Nat) : Reads 0 (decodeErrorCategory tag) fun _ => True := by
  unfold decodeErrorCategory
  split
  case h_13 => exact .fail
  all_goals exact .pure trivial

theorem reads_decodeSource : Reads 0 decodeSource fun _ => True :=
  reads_u32.then fun _ _ => reads_string.then fun _ _ => reads_text.then fun _ _ => .pure trivial

theorem reads_decodeSpan (source : NamedSource) : Reads 0 (decodeSpan source) fun _ => True := by
  refine reads_u32.then fun id _ => ?_
  split
  · exact .fail
  · exact reads_usize.then fun start _ => reads_usize.then fun stop _ => .checked fun _ _ => trivial

theorem reads_decodeLabel : Reads 0 decodeLabel fun _ => True :=
  reads_decodeSource.then fun source _ => (reads_decodeSpan source).then fun _ _ => reads_string.then fun _ _ => .pure trivial

theorem reads_decodeFrame : Reads 0 decodeFrame fun _ => True := by
  have rest : ∀ callee : FrameCallee, Reads 0 (do
      let source ← decodeSource
      let callSite ← decodeSpan source
      return (⟨callee, callSite, source⟩ : CallFrame)) fun _ => True := fun callee =>
    reads_decodeSource.then fun source _ => (reads_decodeSpan source).then fun _ _ => .pure trivial
  refine reads_u8.then fun tag _ => ?_
  split
  · exact reads_string.then fun name _ => rest (.function name)
  · exact rest .closure
  · exact Reads.then (.fail : Reads 0 _ fun _ => True) fun callee _ => rest callee

theorem reads_decodeRuntimeError : Reads 0 (decodeRuntimeError levels) fun _ => True := by
  induction levels with
  | zero => exact .fail
  | succ levels ih =>
    refine reads_u8.then fun tag _ => (reads_decodeErrorCategory tag).then fun category _ => ?_
    refine reads_string.then fun message _ => reads_decodeSource.then fun source _ => ?_
    refine (reads_decodeSpan source).then fun span _ => (Reads.collection reads_decodeLabel).then fun labels _ => ?_
    refine (Reads.collection reads_decodeFrame).then fun frames _ => (Reads.optional ih).then fun cause _ => ?_
    exact (Reads.optional (reads_decodeStatus levels)).then fun status _ => .pure trivial

/-! ## Values -/

section Values

variable {restorer : Restorer F C Program} {callables : List (CallableFamily × C)}

/-- The fields read so far keep their names apart from each other and from the later ones. -/
theorem reads_nominalFields {field : Decode (Value F C)} (reads : Reads 0 field (Represented restorer))
    (count : Nat) (names : List String) :
    Reads 0 (nominalFields field count names) fun fields =>
      (fields.map Prod.fst).Nodup ∧ (∀ entry ∈ fields, entry.1 ∉ names) ∧ ∀ entry ∈ fields, Represented restorer entry.2 := by
  induction count generalizing names with
  | zero => exact .pure ⟨nodup_nil, by simp, by simp⟩
  | succ _ ih =>
    refine reads_string.then fun name _ => ?_
    split
    · exact .fail
    · next fresh =>
      refine reads.then fun value represented => (ih (name :: names)).then fun rest holds => .pure ?_
      obtain ⟨apart, others, each⟩ := holds
      refine ⟨?_, ?_, forall_mem_cons.mpr ⟨represented, each⟩⟩
      · rw [map_cons, nodup_cons]
        refine ⟨fun listed => ?_, apart⟩
        obtain ⟨entry, member, same⟩ := mem_map.mp listed
        exact others entry member (same ▸ mem_cons_self)
      · refine forall_mem_cons.mpr ⟨fresh, fun entry member listed => ?_⟩
        exact others entry member (mem_cons_of_mem _ listed)

/-- A table pays for its rows when it reads their number, and for all cells before the first. -/
theorem reads_decodeTable {cell : Decode (Value F C)} (reads : Reads 0 cell (Represented restorer)) :
    Reads 0 (decodeTable cell) (Represented restorer) := by
  refine (Reads.collection reads_string).then fun columns _ => sized fun height => ?_
  split
  · refine Reads.charge ?_
    have row : Reads columns.length (do reserve columns.length; repeatRead cell columns.length) fun cells =>
        ∀ value ∈ cells, Represented restorer value := by
      refine reserved ?_
      have cells := (Reads.repeat reads columns.length).mono (Nat.le_refl _) fun _ both => both.2
      rwa [Nat.mul_zero] at cells
    have table := (reads_reserve height).bind fun _ _ => (Reads.repeat row height).bind fun rows holds =>
      (Reads.checked fun value made => ?_ : Reads 0 (checked DecodeError.table (newTable columns rows)) (Represented restorer))
    · refine table.mono ?_ fun _ holds => holds
      rw [Nat.mul_comm]
      omega
    · obtain ⟨rfl, distinct, rectangular⟩ := newTable_ok made
      exact .table columns rows distinct rectangular holds.2
  · exact Reads.fail.mono (Nat.zero_le _) fun _ holds => holds

theorem reads_decodeCallableId (held : TableHolds restorer callables) :
    Reads 0 (decodeCallableId callables) (Represented restorer) := by
  refine reads_u32.then fun id _ => ?_
  split
  · next family callable found => exact .pure (.callable family callable (held _ (mem_of_getElem? found)))
  · exact .fail

theorem reads_decodeValue (held : TableHolds restorer callables) (levels : Nat) :
    Reads 0 (decodeValue restorer.restoreError callables levels) (Represented restorer) := by
  induction levels with
  | zero => exact .fail
  | succ levels ih =>
    refine reads_u8.then fun tag _ => ?_
    split
    · exact .pure .null
    · exact reads_bool.then fun value _ => .pure (.bool value)
    · exact reads_i64.then fun value _ => .pure (.int value)
    · refine reads_u64.then fun bits _ => ?_
      exact Reads.then (.checked fun _ _ => trivial : Reads 0 _ fun _ => True) fun value _ => .pure (.float value)
    · exact reads_string.then fun value _ => .pure (.string value)
    · exact reads_byteString.then fun value _ => .pure (.bytes value)
    · exact reads_native.then fun value _ => .pure (.path value)
    · exact reads_i128.then fun value _ => .pure (.duration _)
    · exact reads_u64.then fun value _ => .pure (.byteSize _)
    · exact (Reads.collection ih).then fun values each => .pure (.list values each)
    · have entry : Reads 0 (do
          let key ← string
          let value ← decodeValue restorer.restoreError callables levels
          return (key, value)) fun entry => Represented restorer entry.2 :=
        reads_string.then fun key _ => ih.then fun value represented => .pure represented
      refine (Reads.collection entry).then fun entries each => .checked fun value made => ?_
      obtain ⟨rfl, keys⟩ := newRecord_ok made
      exact .record entries keys each
    · exact reads_decodeTable ih
    · exact reads_i64.then fun start _ => reads_i64.then fun stop _ => reads_bool.then fun inclusive _ => .pure (.range _)
    · exact (reads_decodeStatus levels).then fun status _ => .pure (.status status)
    · exact reads_decodeCallableId held
    · exact (reads_decodeRuntimeError levels).then fun error _ => .pure (.error _)
    · refine (reads_decodeNominalIdentity (reads_decodeValueType levels)).then fun identity _ => ?_
      refine sized fun count => ?_
      rw [Nat.zero_add]
      refine reserved ((reads_nominalFields ih count []).then fun fields holds => .pure ?_)
      exact .nominalRecord identity.1 identity.2 fields holds.1 holds.2.2
    · refine (reads_decodeNominalIdentity (reads_decodeValueType levels)).then fun identity _ => ?_
      refine reads_string.then fun variantName _ => (Reads.collection ih).then fun payload each => .pure ?_
      exact .variant identity.1 identity.2 variantName payload each
    · exact .fail

theorem reads_decodeMutability : Reads 0 decodeMutability fun _ => True := by
  refine reads_u8.then fun tag _ => ?_
  split
  · exact .pure trivial
  · exact .pure trivial
  · exact .fail

theorem reads_decodeBinding (held : TableHolds restorer callables) :
    Reads 0 (decodeBinding restorer.restoreError callables) fun entry => Represented restorer entry.2.value :=
  reads_string.then fun _ _ => reads_decodeMutability.then fun _ _ => (Reads.optional (reads_decodeValueType outermost)).then fun _ _ =>
    (reads_decodeValue held outermost).then fun _ represented => .pure represented

theorem reads_decodeScope (held : TableHolds restorer callables) :
    Reads 0 (decodeScope restorer.restoreError callables) (ScopeHolds restorer) :=
  (Reads.collection (reads_decodeBinding held)).then fun _ each => .checked fun _ built => fromCapsuleBindings_holds each built

end Values

/-! ## Type contexts and callables -/

theorem reads_analysisWork : Reads 0 analysisWork fun _ => True := fun _ inside => ⟨.refl inside, trivial⟩

theorem reads_setAnalysisWork (work : Nat) : Reads 0 (setAnalysisWork work) fun _ => True :=
  fun _ inside => ⟨⟨rfl, inside, Nat.le_refl _⟩, trivial⟩

theorem reads_decodeRetained : Reads 0 decodeRetained fun _ => True := by
  have sources : Reads 0 (do
      let module ← decodeModuleId
      let source ← decodeSource
      return (module, source)) fun _ => True :=
    reads_decodeModuleId.then fun _ _ => reads_decodeSource.then fun _ _ => .pure trivial
  have resolutions : Reads 0 (do
      let requested ← native
      let target ← native
      return (requested, target)) fun _ => True :=
    reads_native.then fun _ _ => reads_native.then fun _ _ => .pure trivial
  refine sized fun count => ?_
  rw [Nat.zero_add]
  split
  · exact Reads.fail.mono (Nat.zero_le _) fun _ holds => holds
  · refine Reads.distinct sources _ _ fun sources => ?_
    refine sized fun count => ?_
    rw [Nat.zero_add]
    exact Reads.distinct resolutions _ _ fun resolutions => .pure trivial

theorem reads_decodeProgram (retained : RetainedSources) :
    Reads 0 (decodeProgram restorer retained) fun _ => True := by
  refine reads_decodeModuleId.then fun root _ => ?_
  split
  · exact .fail
  · refine reads_analysisWork.then fun work _ => (reads_setAnalysisWork _).then fun _ _ => ?_
    split
    · exact .fail
    · split
      · exact .pure trivial
      · exact .fail

theorem reads_decodeCell (ids : List SourceId) : Reads 0 (decodeCell retained ids) fun _ => True := by
  have imports : Reads 0 (do
      let offset ← usize
      let target ← decodeModuleId
      return (offset, target)) fun _ => True :=
    reads_usize.then fun _ _ => reads_decodeModuleId.then fun _ _ => .pure trivial
  refine reads_decodeSource.then fun source _ => ?_
  split
  · exact .fail
  · refine reads_usize.then fun statementCount _ => sized fun count => ?_
    rw [Nat.zero_add]
    refine Reads.distinct reads_usize _ _ fun offsets => sized fun count => ?_
    rw [Nat.zero_add]
    exact Reads.distinct imports _ _ fun imports => .pure trivial

theorem reads_decodeCells (count : Nat) (ids : List SourceId) :
    Reads 0 (decodeCells retained count ids) fun _ => True := by
  induction count generalizing ids with
  | zero => exact .pure trivial
  | succ _ ih =>
    exact (reads_decodeCell retained ids).then fun cell _ => (ih _).then fun rest _ => .pure trivial

theorem reads_decodeTypeContext :
    Reads 0 (decodeTypeContext restorer) fun _ => True := by
  refine reads_decodeRetained.then fun retained _ => sized fun count => ?_
  rw [Nat.zero_add]
  split
  · exact Reads.fail.mono (Nat.zero_le _) fun _ holds => holds
  · have programs := Reads.repeat (reads_decodeProgram restorer retained) count
    refine reserved (programs.then fun programs _ => sized fun count => ?_)
    rw [Nat.zero_add]
    split
    · exact Reads.fail.mono (Nat.zero_le _) fun _ holds => holds
    · exact reserved ((reads_decodeCells retained count _).then fun cells _ => .pure trivial)

theorem reads_decodeParameter : Reads 0 decodeParameter fun _ => True :=
  reads_string.then fun _ _ => (reads_decodeValueType outermost).then fun _ _ => .pure trivial

section Callables

variable {restorer : Restorer F C Program} {callables : List (CallableFamily × C)}

theorem reads_decodeCallable (held : TableHolds restorer callables) :
    Reads 0 (decodeCallable restorer callables) fun snapshot => ScopeHolds restorer snapshot.captured := by
  refine (Reads.optional reads_string).then fun name _ => (Reads.collection reads_decodeParameter).then fun parameters _ => ?_
  refine (reads_decodeScope held).then fun captured holds => reads_decodeSource.then fun source _ => ?_
  refine (Reads.optional (reads_decodeValueType outermost)).then fun resultType _ => reads_string.then fun location _ => ?_
  refine reads_u32.then fun originSource _ => ?_
  split
  · exact .fail
  · refine reads_usize.then fun start _ => reads_usize.then fun stop _ => ?_
    refine Reads.then (.checked fun _ _ => trivial : Reads 0 _ fun _ => True) fun originSpan _ => ?_
    refine sized fun count => ?_
    rw [Nat.zero_add]
    refine Reads.distinct reads_decodeParameter _ _ fun arguments => ?_
    exact (reads_decodeTypeContext restorer).then fun typeContext _ => .pure holds

/-- What a callable refers to has been restored before it. -/
theorem reads_decodeCallables (count : Nat) (held : TableHolds restorer callables) :
    Reads 0 (decodeCallables restorer count callables) (TableHolds restorer) := by
  induction count generalizing callables with
  | zero => exact .pure held
  | succ _ ih =>
    refine (reads_decodeCallable held).then fun snapshot holds => reads_analysisWork.then fun work _ => ?_
    refine (reads_setAnalysisWork _).then fun _ _ => ?_
    split
    · exact .fail
    · next entry restored =>
      refine ih fun other member => ?_
      rcases mem_append.mp member with old | new
      · exact held other old
      · cases mem_singleton.mp new
        exact .mk snapshot work _ entry.1 entry.2 holds.wellFormed holds.each (Prod.ext restored rfl)

theorem reads_callableTable : Reads 0 (callableTable restorer) (TableHolds restorer) := by
  refine sized fun count => ?_
  rw [Nat.zero_add]
  exact reserved (reads_decodeCallables count (by simp [TableHolds]))

end Callables

/-! ## Whole capsules -/

theorem reads_decodeEnvironment : Reads 0 decodeEnvironment fun _ => True := by
  have entry : Reads 0 (do
      let name ← native
      let value ← native
      return (name.bytes, value.bytes)) fun _ => True :=
    reads_native.then fun _ _ => reads_native.then fun _ _ => .pure trivial
  exact (Reads.collection entry).then fun _ _ => .pure trivial

theorem reads_decodeSessionState : Reads 0 decodeSessionState fun _ => True :=
  reads_native.then fun _ _ => reads_decodeEnvironment.then fun _ _ =>
    (Reads.optional (reads_decodeStatus outermost)).then fun _ _ => .pure trivial

theorem reads_beginWire (magic : List UInt8) : Reads 0 (beginWire magic) fun _ => True := by
  have got : Reads 0 (get : Decode (Decoder Nat)) fun _ => True := fun _ inside => ⟨.refl inside, trivial⟩
  refine got.then fun decoder _ => ?_
  split
  · exact .fail
  · refine (reads_take _ _).then fun header _ => ?_
    split
    · exact .fail
    · refine (reads_number 2).then fun found _ => ?_
      split
      · exact .fail
      · refine reads_u64.then fun payload _ => reads_remaining.then fun rest _ => ?_
        split
        · exact .fail
        · exact .pure trivial

theorem reads_finish (trailing : String) : Reads 0 (finish trailing) fun _ => True := by
  refine reads_remaining.then fun rest _ => ?_
  split
  · exact .fail
  · exact .pure trivial

theorem reads_decodeOutcome : Reads 0 decodeOutcome fun _ => True := by
  refine reads_u8.then fun tag _ => ?_
  split
  · exact .pure trivial
  · exact reads_u8.then fun _ _ => .pure trivial
  · exact .fail

/-- Where the check for trailing bytes passes, nothing is left. -/
theorem concludes_finish (trailing : String) (value : α) :
    Concludes (finish trailing >>= fun _ => pure value) fun after => after.offset = after.bytes.length := by
  intro before out after ran
  cases finished : finish trailing before with
  | error stop left =>
    rw [Opaal.Machine.bind_of_error finished] at ran
    contradiction
  | ok =>
    rw [Opaal.Machine.bind_of_ok finished] at ran
    cases ran
    exact concludes_remaining before () after finished

section Whole

variable (restorer : Restorer F C Program)

theorem reads_validate (scopes : List (ScopeStack F C)) (callables : List (CallableFamily × C)) :
    Reads 0 (validate restorer scopes callables) fun _ => True := .checked fun _ _ => trivial

theorem reads_backgroundCapsule :
    Reads 0 (backgroundCapsule restorer) fun capsule => ScopeHolds restorer capsule.scope := by
  refine (reads_beginWire magic).then fun _ _ => reads_string.then fun name _ => reads_string.then fun text _ => ?_
  refine reads_native.then fun cwd _ => reads_decodeEnvironment.then fun environment _ => ?_
  refine (Reads.optional (reads_decodeStatus outermost)).then fun currentStatus _ => ?_
  refine reads_bool.then fun pipefail _ => reads_u64.then fun captureLimit _ => ?_
  refine reads_callableTable.then fun callables held => (reads_decodeScope held).then fun scope holds => ?_
  exact (reads_validate restorer _ _).then fun _ _ => (reads_finish _).then fun _ _ => .pure holds

theorem reads_supervisorCompletion :
    Reads 0 (supervisorCompletion restorer) fun completion =>
      ScopeHolds restorer completion.baseScope ∧ ScopeHolds restorer completion.updatedScope := by
  refine (reads_beginWire completionMagic).then fun _ _ => reads_decodeOutcome.then fun outcome _ => ?_
  refine (Reads.optional (reads_decodeStatus outermost)).then fun status _ => reads_callableTable.then fun callables held => ?_
  refine (reads_decodeScope held).then fun baseScope base => (reads_decodeScope held).then fun updatedScope updated => ?_
  refine (reads_validate restorer _ _).then fun _ _ => reads_decodeSessionState.then fun baseState _ => ?_
  exact reads_decodeSessionState.then fun updatedState _ => (reads_finish _).then fun _ _ => .pure ⟨base, updated⟩

theorem concludes_backgroundCapsule :
    Concludes (backgroundCapsule restorer) fun after => after.offset = after.bytes.length := by
  refine .bind fun _ => .bind fun name => .bind fun text => .bind fun cwd => .bind fun environment => ?_
  refine .bind fun currentStatus => .bind fun pipefail => .bind fun captureLimit => .bind fun callables => ?_
  exact .bind fun scope => .bind fun _ => concludes_finish _ _

theorem concludes_supervisorCompletion :
    Concludes (supervisorCompletion restorer) fun after => after.offset = after.bytes.length := by
  refine .bind fun _ => .bind fun outcome => .bind fun status => .bind fun callables => .bind fun baseScope => ?_
  refine .bind fun updatedScope => .bind fun _ => .bind fun baseState => .bind fun updatedState => ?_
  exact concludes_finish _ _

end Whole

/-! ## Safety -/

/-- A decoder that stayed inside the bytes and made room for no more items than the limit. -/
structure Within (bytes : List UInt8) (decoder : Decoder Nat) : Prop where
  same : decoder.bytes = bytes
  inside : decoder.offset ≤ bytes.length
  bounded : decoder.reserved ≤ maxCapsuleItems

/-- Decoding either returns after the last byte, with what it returns as it should be, or it
reports an error; a read past the end would be a panic. -/
def Safely (bytes : List UInt8) (holds : α → Prop) : EStateM.Result (Stop DecodeError) (Decoder Nat) α → Prop
  | .ok value decoder => Within bytes decoder ∧ decoder.offset = bytes.length ∧ holds value
  | .error stop decoder => Within bytes decoder ∧ stop ≠ .panicked

theorem within_of_leads {bytes : List UInt8} {decoder : Decoder Nat} (leads : Leads 0 (newDecoder bytes) decoder) :
    Within bytes decoder where
  same := leads.bytes
  inside := by
    have inside := leads.inside
    rwa [leads.bytes] at inside
  bounded := by
    have paid : decoder.reserved + decoder.itemsRemaining ≤ 0 + maxCapsuleItems + 0 := leads.paid
    omega

theorem safely_of_reads {program : Decode α} {holds : α → Prop} (reads : Reads 0 program holds)
    (concludes : Concludes program fun after => after.offset = after.bytes.length) (bytes : List UInt8) :
    Safely bytes holds (program (newDecoder bytes)) := by
  have ran := reads (newDecoder bytes) (Nat.zero_le _)
  cases result : program (newDecoder bytes) with
  | ok _ decoder =>
    rw [result] at ran
    have within := within_of_leads ran.1
    have complete : decoder.offset = decoder.bytes.length := concludes _ _ _ result
    exact ⟨within, within.same ▸ complete, ran.2⟩
  | error =>
    rw [result] at ran
    exact ⟨within_of_leads ran.1, ran.2⟩

/-- For all bytes both decoders are safe, and the scopes they return satisfy the invariants of
the runtime, those captured by callables included. -/
theorem capsule_decoding_safe (restorer : Restorer F C Program) (bytes : List UInt8) :
    Safely bytes (fun capsule => ScopeHolds restorer capsule.scope) (decodeBackgroundCapsule restorer bytes) ∧
      Safely bytes (fun completion => ScopeHolds restorer completion.baseScope ∧ ScopeHolds restorer completion.updatedScope)
        (decodeSupervisorCompletion restorer bytes) :=
  ⟨safely_of_reads (reads_backgroundCapsule restorer) (concludes_backgroundCapsule restorer) bytes,
    safely_of_reads (reads_supervisorCompletion restorer) (concludes_supervisorCompletion restorer) bytes⟩

end Opaal.Runtime.Capsule
