import Opaal.Runtime.Utf8Validation

/-!
# The codec boundary

A decoder is pulled for the values of a byte stream that comes in chunks.  Under UTF-8 it holds an
incomplete scalar at the end of a chunk until the next one, so what it delivers is what decoding
the whole stream at once delivers, wherever the chunks are cut.
-/

namespace Opaal.Runtime

open List

open Opaal.Text
open Str

variable {F C : Type}

inductive Codec where
  | utf8 (lossy : Bool)
  | bytes
deriving DecidableEq

inductive DecodeStep (F C : Type) where
  | value (value : Value F C)
  | ended
  | malformed (offset : Nat)

/-- A decoder with the chunks its source still has. -/
structure Decoder where
  codec : Codec
  chunks : List (List UInt8)
  carry : List UInt8 := []
  offset : Nat := 0
  done : Bool := false

/-- Builds a decoder over the chunks of a source. -/
def decodeChunks (codec : Codec) (chunks : List (List UInt8)) : Decoder := { codec, chunks }

/-- The text and the size of what was decoded, in at most `bound` pieces; `none` also when bytes
that were validated are no text. -/
def holdingIncompleteFrom (input : List UInt8) : Nat → List Char → Nat → Option (List Char × Nat)
  | 0, _, _ => none
  | bound + 1, text, index =>
    match Str.fromUtf8 (input.drop index) with
    | .ok rest => some (text ++ rest, input.length)
    | .error error =>
      match Str.fromUtf8 ((input.drop index).take error.validUpTo) with
      | .error _ => none
      | .ok valid =>
        match error.errorLen with
        | some length => holdingIncompleteFrom input bound (text ++ valid ++ [replacement]) (index + error.validUpTo + length)
        | none => some (text ++ valid, index + error.validUpTo)

/-- Decodes with replacements, up to an incomplete scalar at the end. -/
def decodeUtf8LossyHoldingIncomplete (input : List UInt8) : Option (List Char × Nat) :=
  holdingIncompleteFrom input (input.length + 1) [] 0

namespace Decoder

abbrev Pulled (F C : Type) := Option (DecodeStep F C × Decoder)

def text (text : List Char) : DecodeStep F C := .value (.string (String.ofList text))

/-- One value for each chunk that is not empty. -/
def nextBytes (self : Decoder) : List (List UInt8) → DecodeStep F C × Decoder
  | [] => (.ended, { self with chunks := [], done := true })
  | chunk :: chunks =>
    if chunk.isEmpty then nextBytes self chunks
    else (.value (.bytes chunk), { self with chunks, offset := self.offset + chunk.length })

/-- Emits the first `valid` bytes of what is carried. -/
def emitValidPrefix (self : Decoder) (valid : Nat) : Pulled F C :=
  match Str.fromUtf8 (self.carry.take valid) with
  | .error _ => none
  | .ok emitted => some (text emitted, { self with offset := self.offset + valid, carry := self.carry.drop valid })

def flushUtf8StrictAtEof (self : Decoder) : Pulled F C :=
  if self.carry.isEmpty then some (.ended, { self with done := true })
  else
    match Str.fromUtf8 self.carry with
    | .ok emitted => some (text emitted, { self with offset := self.offset + self.carry.length, carry := [] })
    | .error error =>
      if 0 < error.validUpTo then self.emitValidPrefix error.validUpTo
      else some (.malformed self.offset, { self with done := true })

/-- What the carried bytes already decide. -/
def decideUtf8Strict (self : Decoder) : Option (Pulled F C) :=
  match Str.fromUtf8 self.carry with
  | .ok emitted =>
    if emitted.isEmpty then none
    else some (some (text emitted, { self with offset := self.offset + self.carry.length, carry := [] }))
  | .error error =>
    if 0 < error.validUpTo then some (self.emitValidPrefix error.validUpTo)
    else if error.errorLen.isSome then some (some (.malformed self.offset, { self with done := true }))
    else none

def nextUtf8Strict (self : Decoder) : List (List UInt8) → Pulled F C
  | [] => { self with chunks := [] }.decideUtf8Strict.getD { self with chunks := [] }.flushUtf8StrictAtEof
  | chunk :: chunks =>
    { self with chunks := chunk :: chunks }.decideUtf8Strict.getD ({ self with carry := self.carry ++ chunk }.nextUtf8Strict chunks)

def nextUtf8Lossy (self : Decoder) : List (List UInt8) → Pulled F C
  | [] =>
    if self.carry.isEmpty then some (.ended, { self with chunks := [], done := true })
    else
      some (text (Str.fromUtf8Lossy self.carry),
        { self with chunks := [], offset := self.offset + self.carry.length, carry := [] })
  | chunk :: chunks =>
    if chunk.isEmpty then self.nextUtf8Lossy chunks
    else
      match decodeUtf8LossyHoldingIncomplete (self.carry ++ chunk) with
      | none => none
      | some (decoded, consumed) =>
        let carry := (self.carry ++ chunk).drop consumed
        let offset := self.offset + consumed
        if decoded.isEmpty then { self with offset, carry }.nextUtf8Lossy chunks
        else some (text decoded, { self with chunks, offset, carry })

/-- The next step; `none` when an expectation of the code fails. -/
def pull (self : Decoder) : Pulled F C :=
  if self.done then some (.ended, self)
  else
    match self.codec with
    | .bytes => some (self.nextBytes self.chunks)
    | .utf8 false => self.nextUtf8Strict self.chunks
    | .utf8 true => self.nextUtf8Lossy self.chunks

/-- The values of a decoder and the step that ends them, in at most so many pulls. -/
def drain : Nat → Decoder → Option (List (Value F C) × DecodeStep F C)
  | 0, _ => none
  | pulls + 1, self =>
    match self.pull with
    | none => none
    | some (.value value, after) => (drain pulls after).map fun (values, last) => (value :: values, last)
    | some (last, _) => some ([], last)

/-! ## Strict decoding -/

/-- What a decoder has still to decode. -/
def pending (self : Decoder) : List UInt8 := self.carry ++ self.chunks.flatten

/-- A strict pull emits text that its input starts with, or ends where no text is left. -/
inductive StrictPull (offset : Nat) (input : List UInt8) : Pulled F C → Prop where
  | emits {emitted : List Char} {after : Decoder} (nonempty : emitted ≠ []) (codec : after.codec = .utf8 false)
      (live : after.done = false) (split : input = bytes emitted ++ after.pending)
      (moved : after.offset = offset + (bytes emitted).length) : StrictPull offset input (some (text emitted, after))
  | ends {after : Decoder} (empty : input = []) : StrictPull offset input (some (.ended, after))
  | fails {after : Decoder} (nonempty : input ≠ []) (stuck : nextScalar input = none) :
      StrictPull offset input (some (.malformed offset, after))

section Strict

variable {self : Decoder}

theorem emitValidPrefix_pull {front : List Char} {rest : List UInt8} (nonempty : front ≠ []) (codec : self.codec = .utf8 false)
    (live : self.done = false) (split : self.carry = bytes front ++ rest) :
    StrictPull self.offset self.pending (self.emitValidPrefix (bytes front).length : Pulled F C) := by
  unfold emitValidPrefix
  rw [split, take_left, drop_left, fromUtf8_bytes]
  refine .emits nonempty codec live ?_ rfl
  unfold pending
  rw [split, append_assoc]

/-- Text that is carried is emitted. -/
theorem decideUtf8Strict_emits {front : List Char} {rest : List UInt8} (nonempty : front ≠ []) (stuck : nextScalar rest = none)
    (split : self.carry = bytes front ++ rest) :
    ∃ after, (self.decideUtf8Strict : Option (Pulled F C)) = some (some (text front, after)) := by
  unfold decideUtf8Strict
  by_cases empty : rest = []
  · subst empty
    rw [append_nil] at split
    rw [split, fromUtf8_bytes]
    dsimp only
    rw [if_neg (by simpa using nonempty)]
    exact ⟨_, rfl⟩
  · rw [split, fromUtf8_stuck stuck empty]
    dsimp only
    rw [if_pos (length_pos_iff.mpr (Text.bytes_ne_nil nonempty))]
    unfold emitValidPrefix
    rw [split, take_left, fromUtf8_bytes]
    exact ⟨_, rfl⟩

/-- What is carried decides the step, or is the beginning of a scalar. -/
theorem decideUtf8Strict_pull (codec : self.codec = .utf8 false) (live : self.done = false) :
    (∃ pulled : Pulled F C, self.decideUtf8Strict = some pulled ∧ StrictPull self.offset self.pending pulled) ∨
      (self.decideUtf8Strict : Option (Pulled F C)) = none ∧ Unfinished self.carry := by
  obtain ⟨front, rest, split, stuck⟩ := Text.exists_text self.carry
  by_cases empty : rest = []
  · subst empty
    rw [append_nil] at split
    cases front with
    | nil =>
      right
      refine ⟨?_, split ▸ Text.unfinished_nil⟩
      unfold decideUtf8Strict
      rw [split, ← Text.bytes_nil, fromUtf8_bytes]
      rfl
    | cons c front =>
      left
      refine ⟨some (text (c :: front), { self with offset := self.offset + self.carry.length, carry := [] }), ?_, ?_⟩
      · unfold decideUtf8Strict
        rw [split, fromUtf8_bytes]
        rfl
      · rw [split]
        refine .emits (cons_ne_nil c front) codec live ?_ rfl
        unfold pending
        rw [split, nil_append]
  · have error := @fromUtf8_stuck front rest stuck empty
    rw [← split] at error
    by_cases blank : front = []
    · subst blank
      have nothing : ¬0 < (bytes []).length := Nat.lt_irrefl 0
      by_cases unfinished : Unfinished rest
      · right
        rw [errorLen_unfinished unfinished] at error
        refine ⟨?_, split ▸ unfinished⟩
        unfold decideUtf8Strict
        rw [error]
        dsimp only
        rfl
      · left
        rw [errorLen_finished unfinished empty] at error
        refine ⟨some (.malformed self.offset, { self with done := true }), ?_, ?_⟩
        · unfold decideUtf8Strict
          rw [error]
          dsimp only
          rfl
        · unfold pending
          rw [split]
          refine .fails ?_ (Text.stuck_append stuck unfinished _)
          exact fun none => empty (append_eq_nil_iff.mp none).1
    · left
      refine ⟨_, ?_, emitValidPrefix_pull blank codec live split⟩
      unfold decideUtf8Strict
      rw [error]
      dsimp only
      rw [if_pos (length_pos_iff.mpr (Text.bytes_ne_nil blank))]

theorem decideUtf8Strict_nothing (nothing : self.carry = []) : (self.decideUtf8Strict : Option (Pulled F C)) = none := by
  unfold decideUtf8Strict
  rw [nothing, ← Text.bytes_nil, fromUtf8_bytes]
  rfl

variable (chunks : List (List UInt8))

theorem nextUtf8Strict_decided {pulled : Pulled F C} (decided : { self with chunks }.decideUtf8Strict = some pulled) : self.nextUtf8Strict chunks = pulled := by
  cases chunks with
  | nil | cons =>
    unfold nextUtf8Strict
    rw [decided, Option.getD_some]

/-- The text of the first chunk is emitted first. -/
theorem decodeChunks_emits {front : List Char} {rest : List UInt8} (nonempty : front ≠ []) (stuck : nextScalar rest = none) : ∃ after, ((decodeChunks (.utf8 false) ((bytes front ++ rest) :: chunks)).pull :
      Pulled F C) = some (text front, after) := by
  obtain ⟨first, isFirst⟩ : ∃ first, first = decodeChunks (.utf8 false) ((bytes front ++ rest) :: chunks) := ⟨_, rfl⟩
  have undecided : ({ first with chunks := (bytes front ++ rest) :: chunks }.decideUtf8Strict :
      Option (Pulled F C)) = none := by
    subst isFirst
    exact decideUtf8Strict_nothing rfl
  obtain ⟨after, emits⟩ := @decideUtf8Strict_emits F C
    { first with carry := bytes front ++ rest, chunks } front rest nonempty stuck rfl
  have pulled : (first.pull : Pulled F C) = first.nextUtf8Strict ((bytes front ++ rest) :: chunks) := by
    subst isFirst
    rfl
  refine ⟨after, ?_⟩
  rw [← isFirst, pulled, nextUtf8Strict, undecided, Option.getD_none]
  have carried : first.carry ++ (bytes front ++ rest) = bytes front ++ rest := by
    subst isFirst
    rfl
  rw [carried]
  exact nextUtf8Strict_decided chunks emits

theorem flushUtf8StrictAtEof_pull (last : self.chunks = []) (unfinished : Unfinished self.carry) :
    StrictPull self.offset self.pending (self.flushUtf8StrictAtEof : Pulled F C) := by
  have whole : self.pending = self.carry := by
    unfold pending
    rw [last, flatten_nil, append_nil]
  unfold flushUtf8StrictAtEof
  by_cases empty : self.carry = []
  · rw [empty]
    exact .ends (whole.trans empty)
  · rw [if_neg (by simpa using empty)]
    have error := @fromUtf8_stuck [] self.carry unfinished.stuck empty
    rw [Text.bytes_nil, nil_append] at error
    rw [error]
    dsimp only [length_nil]
    rw [if_neg (Nat.lt_irrefl 0)]
    refine .fails ?_ ?_
    · rw [whole]
      exact empty
    · rw [whole]
      exact unfinished.stuck

theorem nextUtf8Strict_pull (codec : self.codec = .utf8 false) (live : self.done = false) :
    StrictPull self.offset (self.carry ++ chunks.flatten) (self.nextUtf8Strict chunks : Pulled F C) := by
  induction chunks generalizing self with
  | nil =>
    unfold nextUtf8Strict
    rcases @decideUtf8Strict_pull F C { self with chunks := [] } codec live with
      ⟨pulled, decided, step⟩ | ⟨undecided, unfinished⟩
    · rw [decided]
      exact step
    · rw [undecided]
      exact @flushUtf8StrictAtEof_pull _ _ { self with chunks := [] } rfl unfinished
  | cons chunk chunks ih =>
    unfold nextUtf8Strict
    rcases @decideUtf8Strict_pull F C { self with chunks := chunk :: chunks } codec live with
      ⟨pulled, decided, step⟩ | ⟨undecided, _⟩
    · rw [decided]
      exact step
    · rw [undecided]
      have onward := @ih { self with carry := self.carry ++ chunk } codec live
      rw [append_assoc] at onward
      exact onward

end Strict

/-- Decoding bytes at once: their text as far as it goes, and where it ends. -/
def decodeWhole (input : List UInt8) : List Char × DecodeStep F C :=
  match Str.fromUtf8 input with
  | .ok text => (text, .ended)
  | .error error => ((Text.decode (input.take error.validUpTo)).getD [], .malformed error.validUpTo)

theorem decodeWhole_stuck {front : List Char} {rest : List UInt8} (stuck : nextScalar rest = none) (nonempty : rest ≠ []) :
    (decodeWhole (bytes front ++ rest) : List Char × DecodeStep F C) =
      (front, .malformed (bytes front).length) := by
  unfold decodeWhole
  rw [fromUtf8_stuck stuck nonempty]
  dsimp only
  rw [take_left, Text.decode_bytes, Option.getD_some]

/-- The values of a decoder are strings, and their texts and the last step are known. -/
def Delivers (pulls : Nat) (self : Decoder) (whole : List Char) (last : DecodeStep F C) : Prop :=
  ∃ parts : List String, self.drain pulls = some (parts.map .string, last) ∧ parts.flatMap String.toList = whole

theorem Delivers.value {pulls : Nat} {self after : Decoder} {emitted whole : List Char} {last : DecodeStep F C}
    (pulled : (self.pull : Pulled F C) = some (text emitted, after)) (rest : Delivers pulls after whole last) :
    Delivers (pulls + 1) self (emitted ++ whole) last := by
  obtain ⟨parts, drained, rfl⟩ := rest
  refine ⟨String.ofList emitted :: parts, ?_, ?_⟩
  · unfold drain
    rw [pulled]
    dsimp [text]
    rw [drained]
    rfl
  · rw [flatMap_cons, String.toList_ofList]

theorem Delivers.last {pulls : Nat} {self after : Decoder} {last : DecodeStep F C}
    (pulled : (self.pull : Pulled F C) = some (last, after)) (noValue : ∀ value, last ≠ .value value) : Delivers (pulls + 1) self [] last := by
  refine ⟨[], ?_, rfl⟩
  unfold drain
  rw [pulled]
  cases last with
  | value value => exact absurd rfl (noValue value)
  | ended | malformed => rfl

/-- A strict decoder that has still to deliver some text and a last step, behind text that it
delivered already. -/
structure Owes (decoder : Decoder) (front : List Char) (last : DecodeStep F C) : Prop where
  codec : decoder.codec = .utf8 false
  live : decoder.done = false
  whole : ∃ before, decoder.offset = (bytes before).length ∧
    decodeWhole (bytes before ++ decoder.pending) = (before ++ front, last)

/-- What was emitted is a beginning of what is owed. -/
theorem decodeWhole_split {before emitted front : List Char} {rest : List UInt8} {last : DecodeStep F C}
    (whole : decodeWhole (bytes (before ++ emitted) ++ rest) = (before ++ front, last)) : ∃ more, front = emitted ++ more := by
  obtain ⟨text, tail, rfl, stuck⟩ := Text.exists_text rest
  have decoded : (decodeWhole (bytes (before ++ emitted ++ text) ++ tail) : List Char × DecodeStep F C).1 =
      before ++ emitted ++ text := by
    by_cases empty : tail = []
    · rw [empty, append_nil]
      unfold decodeWhole
      rw [fromUtf8_bytes]
    · rw [decodeWhole_stuck stuck empty]
  rw [← append_assoc, ← Text.bytes_append] at whole
  rw [whole, append_assoc] at decoded
  exact ⟨text, append_cancel_left decoded⟩

theorem Owes.pull {self : Decoder} {front : List Char} {last : DecodeStep F C} (owes : self.Owes front last) :
    (∃ emitted more after, (self.pull : Pulled F C) = some (text emitted, after) ∧ emitted ≠ [] ∧
      front = emitted ++ more ∧ after.Owes more last ∧ after.pending.length < self.pending.length) ∨
    ∃ after, self.pull = some (last, after) ∧ front = [] ∧ ∀ value, last ≠ .value value := by
  obtain ⟨before, moved, whole⟩ := owes.whole
  have pulled : (self.pull : Pulled F C) = self.nextUtf8Strict self.chunks := by
    unfold Decoder.pull
    rw [owes.live, owes.codec]
    rfl
  have step := @nextUtf8Strict_pull F C self self.chunks owes.codec owes.live
  rw [← pulled] at step
  change StrictPull self.offset self.pending _ at step
  generalize (self.pull : Pulled F C) = result at step ⊢
  cases step with
  | @emits emitted after nonempty codec live split moved' =>
    left
    have size := length_pos_iff.mpr (Text.bytes_ne_nil nonempty)
    rw [split, ← append_assoc, ← Text.bytes_append] at whole
    obtain ⟨more, rfl⟩ := decodeWhole_split whole
    have emittedBefore : after.offset = (bytes (before ++ emitted)).length := by
      rw [moved', moved, Text.bytes_append, length_append]
    rw [← append_assoc] at whole
    refine ⟨emitted, more, after, rfl, nonempty, rfl, ⟨codec, live, before ++ emitted, emittedBefore, whole⟩, ?_⟩
    rw [split, length_append]
    omega
  | @ends after empty =>
    right
    rw [empty, append_nil] at whole
    unfold decodeWhole at whole
    rw [fromUtf8_bytes, Prod.mk.injEq] at whole
    obtain ⟨texts, rfl⟩ := whole
    refine ⟨after, rfl, append_cancel_left (texts.symm.trans (append_nil before).symm), ?_⟩
    intro value impossible
    cases impossible
  | @fails after nonempty stuck =>
    right
    rw [decodeWhole_stuck stuck nonempty, Prod.mk.injEq] at whole
    obtain ⟨texts, rfl⟩ := whole
    rw [moved]
    refine ⟨after, rfl, append_cancel_left (texts.symm.trans (append_nil before).symm), ?_⟩
    intro value impossible
    cases impossible

theorem Owes.delivers {self : Decoder} {front : List Char} {last : DecodeStep F C} (pulls : Nat)
    (owes : self.Owes front last) (enough : self.pending.length < pulls) : Delivers pulls self front last := by
  induction pulls generalizing self front with
  | zero => omega
  | succ pulls ih =>
    rcases owes.pull with ⟨emitted, more, after, pulled, _, rfl, owes', less⟩ | ⟨after, pulled, rfl, noValue⟩
    · exact Delivers.value pulled (ih owes' (by omega))
    · exact Delivers.last pulled noValue

theorem decodeChunks_owes (chunks : List (List UInt8)) {front : List Char} {last : DecodeStep F C}
    (whole : decodeWhole chunks.flatten = (front, last)) : (decodeChunks (.utf8 false) chunks).Owes front last :=
  ⟨rfl, rfl, [], rfl, whole⟩

/-! ## Lossy decoding -/

/-- What is decoded is what the beginning stands for, whatever follows, and what is held begins a
scalar. -/
theorem holdingIncompleteFrom_eq (input : List UInt8) (bound : Nat) (before : List Char) (index : Nat)
    (inside : index ≤ input.length) (enough : input.length - index < bound) :
    ∃ decoded consumed, holdingIncompleteFrom input bound before index = some (before ++ decoded, consumed) ∧
      index + decoded.length ≤ consumed ∧ consumed ≤ input.length ∧ Unfinished (input.drop consumed) ∧
      ∀ more, withReplacements (input.drop index ++ more) = decoded ++ withReplacements (input.drop consumed ++ more) := by
  induction bound generalizing before index with
  | zero => omega
  | succ bound ih =>
    obtain ⟨front, rest, split, stuck⟩ := Text.exists_text (input.drop index)
    have size := congrArg List.length split
    have width := Text.length_le_width front
    rw [← Text.bytes_length] at width
    rw [length_drop, length_append] at size
    unfold holdingIncompleteFrom
    by_cases empty : rest = []
    · subst empty
      rw [append_nil] at split
      refine ⟨front, input.length, ?_, by rw [length_nil] at size; omega, Nat.le_refl _, ?_, ?_⟩
      · rw [split, fromUtf8_bytes]
      · rw [drop_length]
        exact Text.unfinished_nil
      · intro more
        rw [split, Text.withReplacements_bytes, drop_length, nil_append]
    · have error := @fromUtf8_stuck front rest stuck empty
      rw [← split] at error
      have valid : Str.fromUtf8 ((input.drop index).take (bytes front).length) = .ok front := by
        rw [split, take_left, fromUtf8_bytes]
      have behind : input.drop (index + (bytes front).length) = rest := by
        rw [← drop_drop, split, drop_left]
      by_cases unfinished : Unfinished rest
      · rw [errorLen_unfinished unfinished] at error
        refine ⟨front, index + (bytes front).length, ?_, by omega, by omega, behind.symm ▸ unfinished, ?_⟩
        · rw [error]
          dsimp only
          rw [valid]
        · intro more
          rw [split, append_assoc, Text.withReplacements_bytes, behind]
      · rw [errorLen_finished unfinished empty] at error
        have positive := Text.subpart_pos rest
        have within := Text.subpart_le empty
        obtain ⟨decoded, consumed, result, more, less, held, same⟩ := ih (before ++ front ++ [replacement])
          (index + (bytes front).length + subpart rest) (by omega) (by omega)
        refine ⟨front ++ replacement :: decoded, consumed, ?_, ?_, less, held, ?_⟩
        · rw [error]
          dsimp only
          rw [valid]
          dsimp only
          rw [result]
          simp
        · rw [length_append, length_cons]
          omega
        · intro following
          have begins := Text.stuck_append stuck unfinished following
          have nonempty : rest ++ following ≠ [] := fun none => empty (append_eq_nil_iff.mp none).1
          have onward := same following
          rw [← drop_drop, behind] at onward
          rw [split, append_assoc, Text.withReplacements_bytes, Text.withReplacements_stuck begins nonempty,
            Text.subpart_append empty unfinished, drop_append_of_le_length within, onward, append_assoc,
            cons_append]

/-- A lossy pull emits what its input starts with, or ends. -/
inductive LossyPull (input : List UInt8) : Pulled F C → Prop where
  | emits {emitted : List Char} {after : Decoder} (codec : after.codec = .utf8 true) (live : after.done = false)
      (held : Unfinished after.carry) (split : withReplacements input = emitted ++ withReplacements after.pending)
      (less : after.pending.length < input.length) : LossyPull input (some (text emitted, after))
  | ends {after : Decoder} (empty : withReplacements input = []) : LossyPull input (some (.ended, after))

theorem nextUtf8Lossy_pull {self : Decoder} (chunks : List (List UInt8)) (codec : self.codec = .utf8 true)
    (live : self.done = false) (held : Unfinished self.carry) :
    LossyPull (self.carry ++ chunks.flatten) (self.nextUtf8Lossy chunks : Pulled F C) := by
  induction chunks generalizing self with
  | nil =>
    unfold nextUtf8Lossy
    rw [flatten_nil, append_nil]
    by_cases empty : self.carry = []
    · rw [empty]
      exact .ends Text.withReplacements_nil
    · rw [if_neg (by simpa using empty), Str.fromUtf8Lossy_eq]
      refine .emits codec live Text.unfinished_nil ?_ ?_
      · show _ = _ ++ withReplacements ([] ++ List.flatten [])
        rw [flatten_nil, append_nil, Text.withReplacements_nil, append_nil]
      · exact length_pos_iff.mpr empty
  | cons chunk chunks ih =>
    unfold nextUtf8Lossy
    by_cases empty : chunk = []
    · subst empty
      exact ih codec live held
    · rw [if_neg (by simpa using empty)]
      obtain ⟨decoded, consumed, result, more, less, begins, same⟩ :=
        holdingIncompleteFrom_eq (self.carry ++ chunk) ((self.carry ++ chunk).length + 1) [] 0 (Nat.zero_le _)
          (Nat.lt_succ_self _)
      have following := same chunks.flatten
      rw [drop_zero, append_assoc] at following
      unfold decodeUtf8LossyHoldingIncomplete
      rw [result, flatten_cons]
      dsimp only
      rw [nil_append]
      cases decoded with
      | nil =>
        have onward := @ih { self with
          offset := self.offset + consumed
          carry := (self.carry ++ chunk).drop consumed } codec live begins
        generalize (nextUtf8Lossy _ chunks : Pulled F C) = pulled at onward ⊢
        cases onward with
        | emits codec live held split shorter =>
          refine .emits codec live held (following.trans split) ?_
          simp only [length_append, length_drop] at shorter ⊢
          omega
        | ends nothing => exact .ends (following.trans nothing)
      | cons c decoded =>
        refine .emits codec live begins following ?_
        rw [length_cons] at more
        show ((self.carry ++ chunk).drop consumed ++ chunks.flatten).length < _
        simp only [length_append, length_drop] at less ⊢
        omega

theorem lossy_delivers (pulls : Nat) {self : Decoder} (codec : self.codec = .utf8 true) (live : self.done = false)
    (held : Unfinished self.carry) (enough : self.pending.length < pulls) :
    Delivers pulls self (withReplacements self.pending) (.ended : DecodeStep F C) := by
  induction pulls generalizing self with
  | zero => omega
  | succ pulls ih =>
    have pulled : (self.pull : Pulled F C) = self.nextUtf8Lossy self.chunks := by
      unfold pull
      rw [live, codec]
      rfl
    have step := @nextUtf8Lossy_pull F C self self.chunks codec live held
    rw [← pulled] at step
    change LossyPull self.pending _ at step
    generalize answer : (self.pull : Pulled F C) = result at step
    cases step with
    | emits codec' live' held' split less =>
      rw [split]
      exact Delivers.value answer (ih codec' live' held' (by omega))
    | ends nothing =>
      rw [nothing]
      exact Delivers.last answer (fun value impossible => by cases impossible)

/-- Wherever the chunks are cut, the strict decoder delivers what decoding the whole input delivers
and fails where that fails, and the lossy one delivers the whole input with replacements; more
pulls than there are bytes are always enough. -/
theorem decoding_independent_of_chunks (chunks : List (List UInt8)) (more : Nat) :
    Delivers (chunks.flatten.length + 1 + more) (decodeChunks (.utf8 false) chunks)
      (decodeWhole chunks.flatten : List Char × DecodeStep F C).1
      (decodeWhole chunks.flatten : List Char × DecodeStep F C).2 ∧
    Delivers (chunks.flatten.length + 1 + more) (decodeChunks (.utf8 true) chunks) (withReplacements chunks.flatten)
      (.ended : DecodeStep F C) := by
  have enough : chunks.flatten.length < chunks.flatten.length + 1 + more := by omega
  constructor
  · exact (decodeChunks_owes chunks rfl).delivers _ enough
  · exact @lossy_delivers _ _ _ (decodeChunks (.utf8 true) chunks) rfl rfl Text.unfinished_nil enough

end Decoder

end Opaal.Runtime
