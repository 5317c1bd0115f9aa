import Opaal.Runtime.JsonDecoderValues

/-!
# Whole documents

The decoder validates its input chunk by chunk before it scans it: a chunk may end inside a
scalar only where the input goes on.  Together with the scanner this decides every input the
way the grammar does, unless the decoding is interrupted.
-/

namespace Opaal.Runtime

open Opaal.Machine List
open Opaal.Text (bytes decode)
open JsonDecoder

variable {F C : Type}

/-! ## Validation -/

theorem validUpTo_spec (input : List UInt8) : validUpTo input ≤ input.length ∧
    (decode (input.take (validUpTo input))).isSome ∧
    ∀ size, size ≤ input.length → validUpTo input < size → decode (input.take size) = none := by
  unfold validUpTo
  cases found : (List.range (input.length + 1)).reverse.find? fun size => (decode (input.take size)).isSome with
  | none =>
    have never := List.find?_eq_none.mp found 0 (by simp)
    exact absurd (by rw [take_zero, ← Text.bytes_nil, Text.decode_bytes]; rfl) never
  | some size =>
    obtain ⟨valid, before, after, split, longer⟩ := List.find?_eq_some_iff_append.mp found
    have member : size ∈ (List.range (input.length + 1)).reverse := by
      rw [split]
      simp
    rw [Option.getD_some]
    refine ⟨by simpa [Nat.lt_succ_iff] using member, valid, ?_⟩
    intro other bound larger
    have listed : other ∈ before ++ size :: after := by
      rw [← split]
      simpa [Nat.lt_succ_iff] using bound
    have descending : (before ++ size :: after).Pairwise (· > ·) := by
      rw [← split, pairwise_reverse]
      exact pairwise_lt_range
    rcases mem_append.mp listed with earlier | later
    · simpa using longer other earlier
    · rcases mem_cons.mp later with same | later
      · omega
      · have smaller := (pairwise_cons.mp (pairwise_append.mp descending).2.1).1 other later
        omega

/-- An unfinished scalar is all that is left out. -/
theorem validUpTo_bytes {front : List Char} {tail : List UInt8} (unfinished : Text.Unfinished tail) :
    validUpTo (bytes front ++ tail) = (bytes front).length := by
  obtain ⟨inside, valid, longest⟩ := validUpTo_spec (bytes front ++ tail)
  generalize validUpTo (bytes front ++ tail) = size at *
  rcases Nat.lt_trichotomy size (bytes front).length with shorter | same | longer
  · have none := longest (bytes front).length (by simp) shorter
    rw [take_left, Text.decode_bytes] at none
    contradiction
  · exact same
  · have nonempty : tail.take (size - (bytes front).length) ≠ [] := by
      rw [length_append] at inside
      intro empty
      have length := congrArg List.length empty
      rw [length_take, length_nil] at length
      omega
    rw [take_append, take_of_length_le (Nat.le_of_lt longer),
      Text.decode_unfinished (unfinished.take _) nonempty] at valid
    contradiction

theorem endsInsideScalar_iff (rest : List UInt8) : endsInsideScalar rest = true ↔ Text.Unfinished rest := by
  unfold endsInsideScalar
  rw [any_eq_true]
  constructor
  · rintro ⟨code, _, found⟩
    simp only [Bool.and_eq_true, decide_eq_true_eq] at found
    exact ⟨Char.ofNat code, isPrefixOf_iff_prefix.mp found.1.2, found.2⟩
  · rintro ⟨c, starts, shorter⟩
    have valid : c.toNat.isValidChar := c.valid
    have bound : c.toNat < 0x110000 := by
      omega
    refine ⟨c.toNat, mem_range.mpr bound, ?_⟩
    simp only [Char.ofNat_toNat, Bool.and_eq_true, decide_eq_true_eq]
    exact ⟨⟨valid, isPrefixOf_iff_prefix.mpr starts⟩, shorter⟩

theorem unfinished_short {tail : List UInt8} (unfinished : Text.Unfinished tail) : tail.length < 4 := by
  obtain ⟨c, _, shorter⟩ := unfinished
  rw [String.length_utf8EncodeChar] at shorter
  have bound := Char.utf8Size_le_four c
  omega

/-- Well-formed text. -/
def Valid (input : List UInt8) : Prop := ∃ text, bytes text = input

theorem valid_iff (input : List UInt8) : (decode input).isSome = true ↔ Valid input := by
  constructor
  · intro decoded
    obtain ⟨text, same⟩ := Option.isSome_iff_exists.mp decoded
    exact ⟨text, Text.decode_eq_some same⟩
  · rintro ⟨_, rfl⟩
    rw [Text.decode_bytes]
    rfl

theorem Valid.append {front back : List UInt8} (first : Valid front) (second : Valid back) : Valid (front ++ back) := by
  obtain ⟨before, rfl⟩ := first
  obtain ⟨after, rfl⟩ := second
  exact ⟨before ++ after, Text.bytes_append before after⟩

/-- What follows well-formed text in well-formed text is well formed. -/
theorem Valid.rest {front back : List UInt8} (first : Valid front) (whole : Valid (front ++ back)) : Valid back := by
  obtain ⟨_, rfl⟩ := first
  obtain ⟨_, split⟩ := whole
  obtain ⟨after, rfl⟩ := Text.bytes_prefix_iff.mp ⟨back, split.symm⟩
  rw [Text.bytes_append] at split
  exact ⟨after, append_cancel_left split⟩

section Chunks

variable {document : List UInt8} {cursor : Nat}

theorem take_chunk (cursor size : Nat) : document.take (cursor + size) = document.take cursor ++ (document.drop cursor).take size :=
  take_add

/-- A chunk that is neither well formed nor cut inside a scalar leaves the document ill formed. -/
theorem not_valid_of_chunk {size : Nat} (before : Valid (document.take cursor)) (chunk : ¬Valid ((document.drop cursor).take size))
    (other : Text.Unfinished (((document.drop cursor).take size).drop (validUpTo ((document.drop cursor).take size))) →
      document.length ≤ cursor + size) : ¬Valid document := by
  intro whole
  rw [← take_append_drop cursor document] at whole
  obtain ⟨text, onward⟩ := before.rest whole
  obtain ⟨front, tail, split, unfinished⟩ := Text.take_bytes text size
  rw [onward] at split
  rcases Nat.lt_or_ge (cursor + size) document.length with inside | past
  · have ends : Text.Unfinished (((document.drop cursor).take size).drop (validUpTo ((document.drop cursor).take size))) := by
      rw [split, validUpTo_bytes unfinished, drop_left]
      exact unfinished
    have reaches := other ends
    omega
  · apply chunk
    rw [take_of_length_le (by rw [length_drop]; omega)]
    exact ⟨text, onward⟩

end Chunks

section Validation

variable {β : Type} {input : DecoderInput β} {decoder : JsonDecoder} {document : List UInt8}

/-- One turn goes on behind well-formed text, or shows the document ill formed. -/
theorem validateTurn_follows {cursor : Nat} (inside : cursor < document.length) (before : Valid (document.take cursor)) :
    (∃ next, cursor < next ∧ next ≤ document.length ∧ Valid (document.take next) ∧
      Follows input decoder (validateTurn document cursor) (some (.again next, decoder.rest))) ∨
    (¬Valid document ∧ Follows input decoder (validateTurn document cursor) none) := by
  have positive : 4 ≤ chunkSize := by decide
  obtain ⟨taken, size⟩ : ∃ taken, taken = min (cursor + chunkSize) document.length - cursor := ⟨_, rfl⟩
  obtain ⟨short, upTo, _⟩ := validUpTo_spec ((document.drop cursor).take taken)
  rw [length_take, length_drop] at short
  have starts : ∀ {answer}, (∀ visited : JsonDecoder, visited.rest = decoder.rest →
      Follows input visited
        (if (decode ((document.drop cursor).take taken)).isSome then return .again (min (cursor + chunkSize) document.length)
          else if endsInsideScalar (((document.drop cursor).take taken).drop (validUpTo ((document.drop cursor).take taken))) &&
              min (cursor + chunkSize) document.length < document.length then
            return .again (cursor + validUpTo ((document.drop cursor).take taken))
          else throw (.invalid "DATA015"
            ("invalid JSON UTF8 at byte " ++ toString (cursor + validUpTo ((document.drop cursor).take taken))))) answer) →
      Follows input decoder (validateTurn document cursor) answer := by
    intro answer onward
    unfold validateTurn
    rw [if_pos inside]
    apply JsonDecoder.visit_follows.step
    intro visited same
    subst size
    exact onward visited same
  by_cases valid : (decode ((document.drop cursor).take taken)).isSome
  · refine .inl ⟨min (cursor + chunkSize) document.length, by omega, by omega, ?_, starts ?_⟩
    · have stop : min (cursor + chunkSize) document.length = cursor + taken := by omega
      rw [stop, take_chunk]
      exact before.append ((valid_iff _).mp valid)
    · intro visited same
      rw [if_pos valid, ← same]
      exact Follows.returns _
  by_cases cut : endsInsideScalar (((document.drop cursor).take taken).drop (validUpTo ((document.drop cursor).take taken))) &&
      decide (min (cursor + chunkSize) document.length < document.length)
  · have parts := cut
    rw [Bool.and_eq_true, decide_eq_true_eq, endsInsideScalar_iff] at parts
    -- A whole chunk was taken, and at most three bytes of it are left out.
    have few := unfinished_short parts.1
    rw [length_drop, length_take, length_drop] at few
    refine .inl ⟨cursor + validUpTo ((document.drop cursor).take taken), by omega, by omega, ?_, starts ?_⟩
    · rw [take_take, Nat.min_eq_left (by omega)] at upTo
      rw [take_chunk]
      exact before.append ((valid_iff _).mp upTo)
    · intro visited same
      rw [if_neg valid, if_pos cut, ← same]
      exact Follows.returns _
  · refine .inr ⟨?_, starts ?_⟩
    · refine not_valid_of_chunk before (fun held => valid ((valid_iff _).mpr held)) ?_
      intro unfinished
      rw [Bool.and_eq_true, decide_eq_true_eq, endsInsideScalar_iff] at cut
      have reaches : ¬min (cursor + chunkSize) document.length < document.length := fun goesOn => cut ⟨unfinished, goesOn⟩
      omega
    · intro visited _
      rw [if_neg valid, if_neg cut]
      exact Follows.rejected

/-- The loop accepts well-formed text, whatever the chunks cut. -/
theorem validation_follows (bound cursor : Nat) (inside : cursor ≤ document.length)
    (before : Valid (document.take cursor)) (enough : document.length - cursor < bound) :
    Follows input decoder (repeatFrom .unbounded (validateTurn document) bound cursor)
      (if (decode document).isSome then some ((), decoder.rest) else none) := by
  induction bound generalizing decoder cursor with
  | zero => omega
  | succ bound ih =>
    unfold repeatFrom
    by_cases more : cursor < document.length
    · rcases @validateTurn_follows β input decoder document cursor more before with
        ⟨next, further, within, valid, turn⟩ | ⟨invalid, turn⟩
      · apply turn.step
        intro after same
        rw [← same]
        exact ih next within valid (by omega)
      · rw [if_neg (fun decoded => invalid ((valid_iff _).mp decoded))]
        exact follows_stops turn
    · have ends : cursor = document.length := by omega
      rw [ends, take_length] at before
      rw [if_pos ((valid_iff _).mpr before)]
      unfold validateTurn
      rw [if_neg more]
      exact Follows.returns ()

end Validation

/-! ## Documents -/

/-- A program decides what `answer` says, unless it is interrupted. -/
def Decides {β α : Type} (input : DecoderInput β) (decoder : JsonDecoder) (program : DecodeM β α) (answer : Option α) : Prop :=
  match program input decoder with
  | .ok value _ => answer = some value
  | .error abort _ => (Interruption abort ∧ ¬Uninterrupted input decoder) ∨ (answer = none ∧ Rejection abort)

/-- The state in which a program returned or failed. -/
def ending {ε σ α : Type} : EStateM.Result ε σ α → σ
  | .ok _ after | .error _ after => after

theorem Follows.decides {β α : Type} {input : DecoderInput β} {before decoder : JsonDecoder} {program whole : DecodeM β α}
    {answer : Option (α × List UInt8)} (follows : Follows input decoder program answer)
    (balanced : before.budget.Balanced decoder.budget) (same : whole input before = program input decoder) :
    Decides input before whole (answer.map Prod.fst) ∧ before.budget.Balanced (ending (whole input before)).budget := by
  unfold Decides
  unfold Follows at follows
  rw [same]
  cases result : program input decoder with
  | ok =>
    rw [result] at follows
    refine ⟨?_, balanced.trans follows.1.balanced⟩
    rw [follows.2]
    rfl
  | error =>
    rw [result] at follows
    refine ⟨?_, balanced.trans follows.1.balanced⟩
    rcases follows.2 with ⟨interruption, limited⟩ | ⟨refused, rejection⟩
    · exact .inl ⟨interruption, fun free => limited ⟨free.cancel, balanced.unlimited free.budget⟩⟩
    · right
      exact ⟨by rw [refused]; rfl, rejection⟩

/-- The value of a document, by the grammar. -/
def documentValue (json : JsonLibrary (Value F C)) (document : List UInt8) : Option (Value F C) :=
  if maxJsonInput < document.length then none
  else (decode document).bind (Json.readDocument (jsonBuilder json valueVisitor) maxJsonDepth)

/-- The scanner and the rest of the document. -/
theorem document_follows (input : DecoderInput (Value F C)) (decoder : JsonDecoder) (text : List Char)
    (rest : decoder.rest = bytes text) : Follows input decoder
      (do
        let value ← valueAt maxJsonDepth
        whitespace
        if (← peek).isSome then malformed else return value)
      (encoded ((Json.readDocument (jsonBuilder input.json valueVisitor) maxJsonDepth text).map fun value => (value, []))) := by
  have split : (Json.readDocument (jsonBuilder input.json valueVisitor) maxJsonDepth text).map (fun value => (value, [])) =
      (Json.readValue (jsonBuilder input.json valueVisitor) maxJsonDepth text).bind fun (value, rest) =>
        if Json.skipBlank rest = [] then some (value, Json.skipBlank rest) else none := by
    unfold Json.readDocument
    cases Json.readValue (jsonBuilder input.json valueVisitor) maxJsonDepth text with
    | none => rfl
    | some found =>
      simp only [Option.bind_eq_bind, Option.bind_some]
      split
      · next ends => rw [ends, Option.map_some]
      · rfl
  rw [split]
  apply (JsonDecoder.valueAt_reads input maxJsonDepth decoder text rest).chain
  intro value left after _ rest
  apply (JsonDecoder.whitespace_follows rest).step
  intro skipped rest
  apply Follows.peeks
  rw [rest]
  cases ends : Json.skipBlank left with
  | nil =>
    rw [ends] at rest
    simp only [ends, ↓reduceIte]
    exact JsonDecoder.returns_text rest
  | cons c more =>
    obtain ⟨_, head, _⟩ := leadsLike c more
    simp only [ends, head, Option.isSome_some, ↓reduceIte, reduceCtorEq]
    exact Follows.refuses

/-- Unless it is interrupted, decoding decides every input as the grammar does.  Whatever comes of
it, the budget is balanced. -/
theorem jsonDecode_decides (input : DecoderInput (Value F C)) (decoder : JsonDecoder) (document : List UInt8) :
    Decides input decoder (jsonDecode document) (documentValue input.json document) ∧
      decoder.budget.Balanced (ending (jsonDecode document input decoder)).budget := by
  have checked := @JsonDecoder.checkCancel_follows (Value F C) input decoder
  unfold documentValue
  by_cases big : maxJsonInput < document.length
  · have refused : Follows input decoder (jsonDecode document : DecodeM (Value F C) _) none := by
      unfold jsonDecode
      rw [if_pos big]
      apply checked.step
      intro _ _
      exact Follows.rejected
    rw [if_pos big]
    exact refused.decides (.refl _) rfl
  rw [if_neg big]
  have empty : Valid (document.take 0) := ⟨[], rfl⟩
  have validated : Follows input decoder
      (do checkCancel; repeatFrom .unbounded (validateTurn document) (document.length + 1) 0)
      (if (decode document).isSome then some ((), decoder.rest) else none) := by
    apply checked.step
    intro after same
    rw [← same]
    exact validation_follows _ 0 (Nat.zero_le _) empty (by omega)
  have whole : (jsonDecode document : DecodeM (Value F C) _) =
      (do checkCancel; repeatFrom .unbounded (validateTurn document) (document.length + 1) 0) >>= fun _ => do
        modify fun decoder => { decoder with rest := document, cursor := 0, scanRemaining := 0, outputRemaining := 0 }
        let value ← valueAt maxJsonDepth
        whitespace
        if (← peek).isSome then malformed else return value := by
    unfold jsonDecode
    rw [if_neg big, bind_assoc]
  cases decoded : decode document with
  | none =>
    rw [decoded] at validated
    have stops : Follows input decoder (jsonDecode document : DecodeM (Value F C) _) none := by
      rw [whole]
      exact follows_stops validated
    exact stops.decides (.refl _) rfl
  | some text =>
    rw [decoded, Option.isSome_some, if_pos rfl] at validated
    have encodes := Text.decode_eq_some decoded
    unfold Follows at validated
    cases result : (do checkCancel
                       repeatFrom .unbounded (validateTurn document) (document.length + 1) 0 :
                         DecodeM (Value F C) Unit) input decoder with
    | error abort after =>
      rw [result] at validated
      unfold Decides
      rw [whole, error_bind result]
      refine ⟨?_, validated.1.balanced⟩
      rcases validated.2 with interrupted | ⟨refused, _⟩
      · exact .inl interrupted
      · contradiction
    | ok value after =>
      rw [result] at validated
      have scanned := document_follows input
        { after with rest := document, cursor := 0, scanRemaining := 0, outputRemaining := 0 } text encodes.symm
      have decides := @Follows.decides _ _ _ decoder _ _ (jsonDecode document) _ scanned validated.1.balanced (by rw [whole, ok_bind result]; rfl)
      have answer : ∀ found : Option (Value F C),
          (encoded (found.map fun value => (value, []))).map Prod.fst = found := by
        intro found
        cases found <;> rfl
      rw [answer] at decides
      exact decides

end Opaal.Runtime
