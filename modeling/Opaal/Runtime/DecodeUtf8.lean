import Opaal.Runtime.Evaluation
import Opaal.Runtime.Utf8Validation

/-!
# Decoding UTF-8 in chunks

Bytes are validated in chunks of a bounded size, so that an evaluation can be stopped between them.
A chunk that ends inside a scalar is given up to where that scalar starts.  The loop of
`decode_utf8` and the one in front of the JSON decoder accept what is text as a whole, and report
the end of the longest prefix that is text otherwise.
-/

namespace Opaal.Runtime

open Opaal.Machine List
open Opaal.Syntax (Span)
open Opaal.Text
open Evaluation

variable {F C : Type}

/-! ## The operation -/

section Operation

variable (operation : String) (document : List UInt8) (span : Span)

/-- One chunk, from a cursor that is at a scalar boundary. -/
def decodeUtf8Turn (cursor : Nat) : EvalM (Turn Nat Unit) := do
  if cursor < document.length then
    visit span
    let stop := min (cursor + chunkSize) document.length
    match Str.fromUtf8 ((document.drop cursor).take (stop - cursor)) with
    | .ok _ => return .again stop
    | .error error =>
      if error.errorLen.isNone && stop < document.length then return .again (cursor + error.validUpTo)
      else throw (.invalidArgument operation ("invalid UTF8 at byte " ++ toString (cursor + error.validUpTo)) span)
  else return .done ()

/-- The text of a chunk that may have to be cut once. -/
def validText (cursor : Nat) : Nat → Nat → EvalM (Nat × List Char)
  | 0, _ => throw .unbounded
  | bound + 1, stop =>
    match Str.fromUtf8 ((document.drop cursor).take (stop - cursor)) with
    | .ok text => return (stop, text)
    | .error error => validText cursor bound (cursor + error.validUpTo)

/-- Every byte was validated; a chunk is converted up to the last scalar in it. -/
def convertTurn (progress : Nat × List Char) : EvalM (Turn (Nat × List Char) (List Char)) := do
  let (cursor, output) := progress
  if cursor < document.length then
    visit span
    let (stop, text) ← validText document cursor 2 (min (cursor + chunkSize) document.length)
    retainCollectionBytes (Text.width text) span
    return .again (stop, output ++ text)
  else return .done output

def decodeUtf8 : EvalM (Value F C) := do
  repeatFrom .unbounded (decodeUtf8Turn operation document span) (document.length + 1) 0
  let output ← repeatFrom .unbounded (convertTurn document span) (document.length + 1) (0, [])
  return .string (String.ofList output)

end Operation

/-! ## Chunks -/

section Chunks

variable {document : List UInt8} {before : List Char} {cursor : Nat}

/-- What a chunk behind text can be. -/
inductive Chunk (document : List UInt8) (before : List Char) (cursor stop : Nat) : Except Str.Utf8Error (List Char) → Prop where
  | text {text : List Char} (further : cursor < stop) (reaches : document.take stop = bytes (before ++ text)) :
      Chunk document before cursor stop (.ok text)
  | cut {text : List Char} {size : Nat} (positive : 0 < size) (inside : cursor + size < stop) (reaches : document.take (cursor + size) = bytes (before ++ text))
      (decoded : (document.drop cursor).take size = bytes text) (goesOn : stop < document.length) :
      Chunk document before cursor stop (.error ⟨size, none⟩)
  | invalid {size : Nat} {length : Option Nat} (ill : decode document = none) (ends : validUpTo document = cursor + size)
      (refused : length.isNone = false ∨ ¬stop < document.length) : Chunk document before cursor stop (.error ⟨size, length⟩)

theorem chunk_cases (inside : cursor < document.length) (reached : document.take cursor = bytes before) :
    Chunk document before cursor (min (cursor + chunkSize) document.length)
      (Str.fromUtf8 ((document.drop cursor).take (min (cursor + chunkSize) document.length - cursor))) := by
  have positive : 4 ≤ chunkSize := by decide
  obtain ⟨stop, isStop⟩ : ∃ stop, stop = min (cursor + chunkSize) document.length := ⟨_, rfl⟩
  obtain ⟨front, rest, split, stuck⟩ := Text.exists_text ((document.drop cursor).take (stop - cursor))
  have size := congrArg List.length split
  rw [length_take, length_drop, length_append] at size
  have whole : document.take stop = bytes (before ++ front) ++ rest := by
    rw [show stop = cursor + (stop - cursor) by omega, take_add, reached, split, Text.bytes_append, append_assoc]
  rw [← isStop]
  by_cases empty : rest = []
  · subst empty
    rw [append_nil] at split whole
    rw [split, Str.fromUtf8_bytes]
    exact .text (by omega) whole
  · have error := @Str.fromUtf8_stuck front rest stuck empty
    rw [← split] at error
    have behind : document = bytes (before ++ front) ++ (rest ++ document.drop stop) := by
      rw [← append_assoc, ← whole, take_append_drop]
    have ends : (bytes (before ++ front)).length = cursor + (bytes front).length := by
      have known := congrArg List.length reached
      rw [length_take, Nat.min_eq_left (Nat.le_of_lt inside)] at known
      rw [Text.bytes_append, length_append, known]
    have nonempty : rest ++ document.drop stop ≠ [] := fun none => empty (append_eq_nil_iff.mp none).1
    have fails : nextScalar (rest ++ document.drop stop) = none →
        decode document = none ∧ validUpTo document = cursor + (bytes front).length := by
      intro stuck'
      rw [behind]
      exact ⟨decode_stuck stuck' nonempty, (validUpTo_stuck stuck').trans ends⟩
    rw [error]
    by_cases unfinished : Unfinished rest
    · have some := length_pos_iff.mpr empty
      rw [errorLen_unfinished unfinished]
      have few := unfinished_short unfinished
      by_cases goesOn : stop < document.length
      · refine @Chunk.cut document before cursor stop front _ (by omega) (by omega) ?_ ?_ goesOn
        · have taken := congrArg (List.take (bytes (before ++ front)).length) behind
          rw [take_left, ends] at taken
          exact taken
        · have taken := congrArg (List.take (bytes front).length) split
          rw [take_left, take_take, Nat.min_eq_left (by omega)] at taken
          exact taken
      · have last : document.drop stop = [] := drop_eq_nil_of_le (Nat.le_of_not_lt goesOn)
        have failed := fails (by rw [last, append_nil]; exact stuck)
        exact .invalid failed.1 failed.2 (.inr goesOn)
    · rw [errorLen_finished unfinished empty]
      have failed := fails (Text.stuck_append stuck unfinished _)
      exact .invalid failed.1 failed.2 (.inl rfl)

end Chunks

/-! ## The loops -/

/-- The error of the operation: the bytes are not text, and the longest prefix that is text ends
where the message says. -/
def NotText (expected : String) (document : List UInt8) (operation message : String) : Prop :=
  decode document = none ∧ operation = expected ∧ message = "invalid UTF8 at byte " ++ toString (validUpTo document)

section Loops

variable {document : List UInt8} {input : ListOperations.ListInput} {state : ListOperations.ListState} {free : Prop} {length : Nat}
  {operation : String} {span : Span} {refused : String → String → Prop}

/-- The cursor is behind text. -/
structure Reached (document : List UInt8) (cursor : Nat) (before : List Char) : Prop where
  inside : cursor ≤ document.length
  text : document.take cursor = bytes before

variable {cursor : Nat} {before : List Char}

theorem Reached.whole (reached : Reached document cursor before) (ends : ¬cursor < document.length) : document = bytes before := by
  have all : document.take cursor = document := take_of_length_le (Nat.le_of_not_lt ends)
  rw [← all]
  exact reached.text

/-- A turn from behind text goes on behind more text, or is done at the end. -/
abbrev Further (document : List UInt8) : Nat → Turn Nat Unit → Prop :=
  Turn.Lowers (fun cursor => ∃ before, Reached document cursor before) (fun cursor => document.length - cursor)
    fun _ => ∃ text, document = bytes text

theorem further {next : Nat} (reached : Reached document next before) (larger : cursor < next) :
    Further document cursor (.again next) := by
  have smaller : document.length - next < document.length - cursor := by
    have inside := reached.inside
    omega
  exact ⟨⟨before, reached⟩, smaller⟩

/-- What is decided about a chunk, whatever error is thrown for a refused one. -/
theorem chunk_runs {ι ε σ : Type} {order : Order ε σ} {reads : ι} {state : σ} (refuse : Nat → ε)
    (more : cursor < document.length) (reached : Reached document cursor before)
    (allowed : decode document = none → order.allowed (refuse (validUpTo document))) :
    Runs order (match Str.fromUtf8 ((document.drop cursor).take (min (cursor + chunkSize) document.length - cursor)) with
      | .ok _ => return .again (min (cursor + chunkSize) document.length)
      | .error error =>
        if error.errorLen.isNone && min (cursor + chunkSize) document.length < document.length then
          return .again (cursor + error.validUpTo)
        else throw (refuse (cursor + error.validUpTo))) reads state fun turn _ => Further document cursor turn := by
  have chunk := chunk_cases more reached.text
  have stops : min (cursor + chunkSize) document.length ≤ document.length := Nat.min_le_right _ _
  generalize min (cursor + chunkSize) document.length = stop at chunk stops ⊢
  generalize Str.fromUtf8 ((document.drop cursor).take (stop - cursor)) = answer at chunk ⊢
  cases chunk with
  | text larger reaches => exact Runs.pure (further ⟨stops, reaches⟩ larger)
  | @cut text size positive inside reaches _ goesOn =>
    dsimp only
    rw [if_pos (by simpa using goesOn)]
    exact Runs.pure (further ⟨by omega, reaches⟩ (by omega))
  | @invalid _ length ill ends refused =>
    have stays : ¬(length.isNone && decide (stop < document.length)) = true := by
      rcases refused with finished | last
      · simp [finished]
      · simp [last]
    dsimp only
    rw [if_neg stays, ← ends]
    exact Runs.throw (allowed ill)

theorem decodeUtf8Turn_runs (reached : ∃ before, Reached document cursor before) :
    Runs (evaluation input free length (NotText operation document))
      (decodeUtf8Turn operation document span cursor) input state fun turn _ => Further document cursor turn := by
  obtain ⟨before, reached⟩ := reached
  unfold decodeUtf8Turn
  by_cases more : cursor < document.length
  · rw [if_pos more]
    refine visited fun after => ?_
    apply chunk_runs (fun size => Evaluation.EvalAbort.invalidArgument operation ("invalid UTF8 at byte " ++ toString size) span)
      more reached
    intro ill
    exact ⟨ill, rfl, rfl⟩
  · rw [if_neg more]
    exact Runs.pure ⟨before, reached.whole more⟩

/-- A chunk of text is converted in one pass, or cut once. -/
theorem validText_runs (more : cursor < document.length) (reached : Reached document cursor before)
    (whole : (decode document).isSome) :
    Runs (evaluation input free length refused)
      (validText document cursor 2 (min (cursor + chunkSize) document.length)) input state fun (stop, text) _ =>
        cursor < stop ∧ Reached document stop (before ++ text) := by
  have chunk := chunk_cases more reached.text
  have stops : min (cursor + chunkSize) document.length ≤ document.length := Nat.min_le_right _ _
  unfold validText
  generalize min (cursor + chunkSize) document.length = stop at chunk stops ⊢
  generalize Str.fromUtf8 ((document.drop cursor).take (stop - cursor)) = answer at chunk ⊢
  cases chunk with
  | text further reaches => exact Runs.pure ⟨further, stops, reaches⟩
  | @cut text size positive inside reaches decoded goesOn =>
    unfold validText
    dsimp only
    rw [Nat.add_sub_cancel_left, decoded, Str.fromUtf8_bytes]
    exact Runs.pure ⟨by omega, by omega, reaches⟩
  | invalid ill =>
    rw [ill] at whole
    contradiction

theorem convertTurn_runs {progress : Nat × List Char} (reached : Reached document progress.1 progress.2)
    (whole : (decode document).isSome) :
    Runs (evaluation input free length refused) (convertTurn document span progress) input state fun turn _ =>
      turn.Lowers (fun progress => Reached document progress.1 progress.2) (fun progress => document.length - progress.1)
        (fun output => document = bytes output) progress := by
  obtain ⟨cursor, output⟩ := progress
  unfold convertTurn
  dsimp only
  by_cases more : cursor < document.length
  · rw [if_pos more]
    refine visited fun after => ?_
    refine (validText_runs more reached whole).bind ?_
    intro ⟨stop, text⟩ _ _ ⟨further, converted⟩
    refine Evaluation.retainCollectionBytes_runs.bind ?_
    intro _ _ _ _
    exact Runs.pure ⟨converted, by have := converted.inside; dsimp only; omega⟩
  · rw [if_neg more]
    exact Runs.pure (reached.whole more)

theorem decodeUtf8_runs : Runs (evaluation input free length (NotText operation document))
    (decodeUtf8 operation document span : EvalM (Value F C)) input state fun value _ =>
      ∃ text, decode document = some text ∧ value = .string (String.ofList text) := by
  have start : Reached document 0 [] := ⟨Nat.zero_le _, rfl⟩
  have validated : Runs (evaluation input free length (NotText operation document))
      (repeatFrom .unbounded (decodeUtf8Turn operation document span) (document.length + 1) 0) input state fun _ _ =>
        ∃ text, document = bytes text := by
    apply Runs.repeatFrom_smaller (fun _ _ reached => decodeUtf8Turn_runs reached) (by omega)
    exact ⟨[], start⟩
  refine validated.bind ?_
  rintro _ middle _ ⟨text, rfl⟩
  have whole : (decode (bytes text)).isSome := by rw [Text.decode_bytes]; rfl
  have converted : Runs (evaluation input free length (NotText operation (bytes text)))
      (repeatFrom .unbounded (convertTurn (bytes text) span) ((bytes text).length + 1) (0, [])) input middle fun output _ =>
        bytes text = bytes output := by
    apply Runs.repeatFrom_smaller (fun _ _ reached => convertTurn_runs reached whole) (by dsimp only; omega)
    exact start
  refine converted.bind ?_
  intro output _ _ same
  exact Runs.pure ⟨output, by rw [same, Text.decode_bytes], rfl⟩

end Loops

/-! ## The entry of the JSON decoder -/

section Json

variable {β : Type} {input : DecoderInput β} {decoder : JsonDecoder} {document : List UInt8}

/-- Every state follows every other; only the error of an ill-formed document is bounded. -/
def refusals (document : List UInt8) : Order Abort JsonDecoder where
  valid _ := True
  later _ _ := True
  allowed
    | .invalid code message => decode document = none ∧ code = "DATA015" ∧
        message = "invalid JSON UTF8 at byte " ++ toString (validUpTo document)
    | _ => True
  refl _ := trivial
  trans _ _ := trivial
  keeps _ _ := trivial

theorem errorLen_isNone {rest : List UInt8} (nonempty : rest ≠ []) : (Glob.errorLen rest).isNone = endsInsideScalar rest := by
  by_cases unfinished : Unfinished rest
  · rw [errorLen_unfinished unfinished, (endsInsideScalar_iff rest).mpr unfinished]
    rfl
  · rw [errorLen_finished unfinished nonempty]
    cases ends : endsInsideScalar rest with
    | false => rfl
    | true => exact absurd ((endsInsideScalar_iff rest).mp ends) unfinished

/-- The turn asks the library the same as the one of the operation. -/
theorem validateTurn_eq (cursor : Nat) : (validateTurn document cursor : DecodeM β (Turn Nat Unit)) =
    if cursor < document.length then do
      JsonDecoder.visit
      match Str.fromUtf8 ((document.drop cursor).take (min (cursor + chunkSize) document.length - cursor)) with
      | .ok _ => return .again (min (cursor + chunkSize) document.length)
      | .error error =>
        if error.errorLen.isNone && min (cursor + chunkSize) document.length < document.length then
          return .again (cursor + error.validUpTo)
        else throw (.invalid "DATA015" ("invalid JSON UTF8 at byte " ++ toString (cursor + error.validUpTo)))
    else return .done () := by
  unfold validateTurn
  dsimp only
  generalize (document.drop cursor).take (min (cursor + chunkSize) document.length - cursor) = chunk
  obtain ⟨_, rest, rfl, stuck⟩ := Text.exists_text chunk
  by_cases empty : rest = []
  · rw [empty, append_nil, Str.fromUtf8_bytes, Text.decode_bytes]
    rfl
  · rw [decode_stuck stuck empty, Str.fromUtf8_stuck stuck empty, validUpTo_stuck stuck, drop_left]
    dsimp only
    rw [errorLen_isNone empty]
    simp

theorem visit_refusals : Runs (refusals document) (JsonDecoder.visit : DecodeM β Unit) input decoder fun _ _ => True := by
  have polls : Runs (refusals document) (JsonDecoder.checkCancel : DecodeM β Unit) input decoder fun _ _ => True := by
    intro _
    unfold JsonDecoder.checkCancel
    cases input.cancel.isCancelled decoder.polls <;> exact ⟨trivial, trivial⟩
  refine polls.bind ?_
  intro _ after _ _ _
  unfold JsonDecoder.spend
  cases ResourceBudget.charge after.budget <;> exact ⟨trivial, trivial⟩

theorem validateTurn_runs {cursor : Nat} (reached : ∃ before, Reached document cursor before) :
    Runs (refusals document) (validateTurn document cursor) input decoder fun turn _ => Further document cursor turn := by
  obtain ⟨before, reached⟩ := reached
  rw [validateTurn_eq]
  by_cases more : cursor < document.length
  · rw [if_pos more]
    refine visit_refusals.bind ?_
    intro _ _ _ _
    apply chunk_runs (fun size => Abort.invalid "DATA015" ("invalid JSON UTF8 at byte " ++ toString size)) more reached
    intro ill
    exact ⟨ill, rfl, rfl⟩
  · rw [if_neg more]
    exact Runs.pure ⟨before, reached.whole more⟩

/-- The validation in front of the scanner ends: it accepts exactly text, and refuses anything else
with the end of the longest prefix that is text, unless it is interrupted. -/
def Validates (input : DecoderInput β) (decoder : JsonDecoder) (document : List UInt8) : Prop :=
  match repeatFrom .unbounded (validateTurn document) (document.length + 1) 0 input decoder with
  | .ok () after => after.rest = decoder.rest ∧ ∃ text, decode document = some text
  | .error abort _ => (Interruption abort ∧ ¬Uninterrupted input decoder) ∨
      (decode document = none ∧ abort = .invalid "DATA015" ("invalid JSON UTF8 at byte " ++ toString (validUpTo document)))

theorem json_validates (input : DecoderInput β) (decoder : JsonDecoder) (document : List UInt8) :
    Validates input decoder document := by
  have start : Reached document 0 [] := ⟨Nat.zero_le _, rfl⟩
  have refuses : Runs (refusals document) (repeatFrom .unbounded (validateTurn document) (document.length + 1) 0) input decoder
      fun _ _ => ∃ text, document = bytes text := by
    apply Runs.repeatFrom_smaller (fun _ _ reached => validateTurn_runs reached) (by omega)
    exact ⟨[], start⟩
  have follows := @validation_follows β input decoder document (document.length + 1) 0 (Nat.zero_le _) ⟨[], rfl⟩ (by omega)
  have ended := refuses trivial
  unfold Validates
  unfold Follows at follows
  cases ran : repeatFrom .unbounded (validateTurn document) (document.length + 1) 0 input decoder with
  | ok =>
    rw [ran] at follows ended
    obtain ⟨_, text, rfl⟩ := ended
    obtain ⟨_, answered⟩ := follows
    rw [Text.decode_bytes, Option.isSome_some, if_pos rfl, Option.some.injEq, Prod.mk.injEq] at answered
    exact ⟨answered.2.symm, text, Text.decode_bytes text⟩
  | error =>
    rw [ran] at follows ended
    refine follows.2.imp id ?_
    rintro ⟨_, _, _, rfl⟩
    obtain ⟨_, ill, rfl, rfl⟩ := ended
    exact ⟨ill, rfl⟩

end Json

/-! ## Both loops -/

/-- Validation in chunks agrees with the validation of the whole. -/
theorem chunked_validation_agrees (document : List UInt8) :
    (∀ (operation : String) (span : Span) (input : ListOperations.ListInput) (state : ListOperations.ListState),
      Evaluation.Concludes ((decodeUtf8 operation document span : EvalM (Value F C)) input state)
        (fun value => ∃ text, decode document = some text ∧ value = .string (String.ofList text))
        (ListOperations.Interrupted input state.budget.Unlimited 0) (NotText operation document)) ∧
    ∀ (β : Type) (input : DecoderInput β) (decoder : JsonDecoder), Validates input decoder document := by
  constructor
  · intro operation span input state
    exact Evaluation.Runs.concludes decodeUtf8_runs
  · intro β input decoder
    exact json_validates input decoder document

end Opaal.Runtime
