import Opaal.Runtime.JsonDecoderDocument
import Opaal.Runtime.ListOperations
import Opaal.Runtime.TypeReconstruction

/-!
# Call depth

Nested data is walked at the cost of calls.  Whatever the outcome of such a walk, it leaves as
many calls open as it found, and it opens none past the limit.
-/

namespace Opaal.Runtime.ListOperations

open Opaal.Machine List
open Opaal.Syntax (Span)

variable {F C : Type}

/-! ## The type of a value -/

mutual

/-- Lists are entered as far as both the type and the value are lists. -/
def validateOperationValue : ValueType → Value F C → Span → ListM Bool
  | .list element, .list values, span => entered (validateElements element values span) span
  | expected, value, _ => return expected.accepts value

def validateElements (element : ValueType) : List (Value F C) → Span → ListM Bool
  | [], _ => return true
  | value :: values, span => do
    checkCancel span
    charge span
    if !(← validateOperationValue element value span) then return false else validateElements element values span

end

mutual

/-- A list has a type when its elements have one, and all the same. -/
def completeValueType : Value F C → Span → ListM (Option ValueType)
  | .list values, span => do
    checkCancel span
    charge span
    entered (completeElements none values span) span
  | value, span => do
    checkCancel span
    charge span
    return runtimeValueType value

def completeElements (element : Option ValueType) : List (Value F C) → Span → ListM (Option ValueType)
  | [], _ => return element.map .list
  | value :: values, span => do
    match ← completeValueType value span with
    | none => return none
    | some actual =>
      if element.any fun previous => previous != actual then return none else completeElements (some actual) values span

end

/-! ## Balance -/

variable {α : Type} {input : ListInput} {state : ListState} {span : Span}

/-- What holds of a program under any discipline: it may be refused for any reason. -/
def Even (program : ListM α) : Prop :=
  ∀ input state, Runs (discipline input False 0 fun _ => True) program input state fun _ _ => True

theorem Even.balanced {program : ListM α} (even : Even program) :
    state.budget.Balanced (ending (program input state)).budget := by
  have runs := even input state fun impossible => impossible.elim
  cases result : program input state with
  | ok | error =>
    rw [result] at runs
    exact runs.1

theorem Even.returns (value : α) : Even (pure value : ListM α) := fun _ _ => Runs.pure trivial

theorem Even.bind {β : Type} {program : ListM α} {next : α → ListM β} (first : Even program) (second : ∀ value, Even (next value)) :
    Even (program >>= next) :=
  fun input state => Runs.bind (first input state) fun value after _ _ => second value input after

theorem Even.visited {rest : Unit → Unit → ListM α} (even : Even (rest () ())) : Even (do
    let checked ← checkCancel span
    let charged ← charge span
    rest checked charged) :=
  fun input _ => ListOperations.visited fun after => even input after

theorem Even.entered {inner : ListM α} (even : Even inner) : Even (ListOperations.entered inner span) :=
  fun input _ => entered_runs fun after => even input after

theorem validateElements_even {element : ValueType} {values : List (Value F C)}
    (each : ∀ value ∈ values, Even (validateOperationValue element value span)) :
    Even (validateElements element values span) := by
  induction values with
  | nil =>
    rw [validateElements]
    exact .returns true
  | cons value values ih =>
    rw [validateElements]
    refine .visited (.bind (each value mem_cons_self) fun accepted => ?_)
    split
    · exact .returns false
    · exact ih fun value listed => each value (mem_cons_of_mem _ listed)

theorem validateOperationValue_even (expected : ValueType) (value : Value F C) :
    Even (validateOperationValue expected value span) := by
  induction value using Value.inductionLists generalizing expected with
  | leaf value outside =>
    rw [validateOperationValue]
    · exact .returns _
    · intro _ values _
      exact outside values
  | list values ih =>
    cases expected with
    | list element =>
      rw [validateOperationValue]
      exact .entered (validateElements_even fun value listed => ih value listed element)
    | _ =>
      rw [validateOperationValue]
      · exact .returns _
      · intros
        contradiction

theorem completeElements_even {values : List (Value F C)} (each : ∀ value ∈ values, Even (completeValueType value span))
    (element : Option ValueType) : Even (completeElements element values span) := by
  induction values generalizing element with
  | nil =>
    rw [completeElements]
    exact .returns _
  | cons value values ih =>
    rw [completeElements]
    refine .bind (each value mem_cons_self) fun typed => ?_
    split
    · exact .returns none
    · split
      · exact .returns none
      · exact ih (fun value listed => each value (mem_cons_of_mem _ listed)) _

theorem completeValueType_even (value : Value F C) : Even (completeValueType value span) := by
  induction value using Value.inductionLists with
  | leaf value outside =>
    rw [completeValueType]
    · exact .visited (.returns _)
    · exact outside
  | list values ih =>
    rw [completeValueType]
    exact .visited (.entered (completeElements_even ih none))

theorem compareListKeys_even (left right : Value F C) : Even (compareListKeys left right span) := fun _ _ =>
  Runs.mono (reports_more (compareListKeys_compares left right) fun _ _ => trivial) fun _ _ _ _ => trivial

/-- Decoding a document, checking or reading off the type of a value and comparing two values leave as many
calls open as there were, however they end, and the most calls ever open do not pass the limit. -/
theorem callDepth_balanced :
    (∀ (document : List UInt8) (input : DecoderInput (Value F C)) (decoder : JsonDecoder),
      decoder.budget.Balanced (ending (jsonDecode document input decoder)).budget) ∧
    (∀ (expected : ValueType) (value : Value F C) (span : Span) (input : ListInput) (state : ListState),
      state.budget.Balanced (ending (validateOperationValue expected value span input state)).budget) ∧
    (∀ (value : Value F C) (span : Span) (input : ListInput) (state : ListState),
      state.budget.Balanced (ending (completeValueType value span input state)).budget) ∧
    ∀ (left right : Value F C) (span : Span) (input : ListInput) (state : ListState),
      state.budget.Balanced (ending (compareListKeys left right span input state)).budget :=
  ⟨fun document input decoder => (jsonDecode_decides input decoder document).2,
    fun expected value _ _ _ => (validateOperationValue_even expected value).balanced,
    fun value _ _ _ => (completeValueType_even value).balanced,
    fun left right _ _ _ => (compareListKeys_even left right).balanced⟩

end Opaal.Runtime.ListOperations
