import Opaal.Runtime.Convert
import Opaal.Runtime.Lines

/-!
# Reading text line by line

The line reader of the `text` format decodes a byte stream and refuses a line that grows past a
limit.  It looks at the limit only while it holds text without a newline, so a line that comes in
one chunk with its newline is never refused, however long it is.
-/

namespace Opaal.Runtime

open List

open Opaal.Text
open Decoder

variable {F C : Type}

inductive FromTextStep (F C : Type) where
  | line (value : Value F C)
  | ended
  | malformed (offset : Nat)
  | lineTooLong (limit : Nat)

structure FromText where
  decoder : Decoder
  carry : LineCarry := {}
  limit : Nat
  inputEnded : Bool := false
  done : Bool := false

/-- Builds a reader over the chunks of a source. -/
def fromText (chunks : List (List UInt8)) (limit : Nat) : FromText := { decoder := decodeChunks (.utf8 false) chunks, limit }

namespace FromText

abbrev Pulled (F C : Type) := Option (FromTextStep F C × FromText)

def line (line : List Char) : FromTextStep F C := .line (.string (String.ofList line))

def flushRemainder (self : FromText) : FromTextStep F C × FromText :=
  match self.carry.flush with
  | some (last, carry) => (line last, { self with carry, done := true })
  | none => (.ended, { self with done := true })

/-- The loop of a pull, in at most so many passes; `none` also when an expectation of the code
fails. -/
def pullFrom : Nat → FromText → Pulled F C
  | 0, _ => none
  | passes + 1, self =>
    match self.carry.nextLine with
    | some (next, carry) => some (line next, { self with carry })
    | none =>
      if self.inputEnded then some self.flushRemainder
      else if self.limit < self.carry.len then some (.lineTooLong self.limit, { self with done := true })
      else
        match (self.decoder.pull : Decoder.Pulled F C) with
        | some (.value (.string text), decoder) => pullFrom passes { self with decoder, carry := self.carry.push text.toList }
        | some (.value _, _) => none
        | some (.ended, decoder) => pullFrom passes { self with decoder, inputEnded := true }
        | some (.malformed offset, decoder) => some (.malformed offset, { self with decoder, done := true })
        | none => none

/-- A pull reads no more often than there are bytes and once for the end. -/
def pull (self : FromText) : Pulled F C :=
  if self.done then some (.ended, self) else pullFrom (self.decoder.pending.length + 3) self

/-- The lines of a reader and the step that ends them, in at most so many pulls. -/
def drain : Nat → FromText → Option (List (Value F C) × FromTextStep F C)
  | 0, _ => none
  | pulls + 1, self =>
    match self.pull with
    | none => none
    | some (.line value, after) => (drain pulls after).map fun (values, last) => (value :: values, last)
    | some (last, _) => some ([], last)

/-! ## Lines that a newline ends -/

/-- The lines of a text that a newline ends, as they stand there. -/
def terminated (text : List Char) : List (List Char) := (text.splitOn '\n').dropLast

theorem terminated_free {text : List Char} (free : '\n' ∉ text) : terminated text = [] := by
  unfold terminated
  rw [splitOn_free free]
  rfl

theorem terminated_newline {line : List Char} (free : '\n' ∉ line) (rest : List Char) :
    terminated (line ++ '\n' :: rest) = line :: terminated rest := by
  unfold terminated
  rw [splitOn_newline free, dropLast_cons_of_ne_nil (splitOn_ne_nil '\n' rest)]

/-- A text has no newline, or a first line. -/
theorem first_line (text : List Char) : '\n' ∉ text ∨ ∃ line rest, '\n' ∉ line ∧ text = line ++ '\n' :: rest := by
  by_cases found : '\n' ∈ text
  · obtain ⟨line, rest, split, free⟩ := eq_append_cons_of_mem found
    exact .inr ⟨line, rest, free, split⟩
  · exact .inl found

/-! ## What a reader delivers -/

/-- What is left of the text, before the last step of the decoder. -/
structure Holds (reader : FromText) (rest : List Char) (last : DecodeStep F C) : Prop where
  live : reader.done = false
  ends : reader.inputEnded = true → rest = reader.carry.text ∧ last = .ended ∧ width rest ≤ reader.limit
  goesOn : reader.inputEnded = false → ∃ front, reader.decoder.Owes front last ∧ rest = reader.carry.text ++ front

/-- How the reader ends when no newline is left. -/
def lastSteps (limit : Nat) (rest : List Char) (last : DecodeStep F C) :
    List (List Char) × FromTextStep F C :=
  if limit < width rest then ([], .lineTooLong limit)
  else
    match last with
    | .ended => (if rest = [] then [] else [rest], .ended)
    | .malformed offset => ([], .malformed offset)
    | .value _ => ([], .ended)

/-- A pull takes the first line of what is left, unless no newline is left. -/
inductive TextPull (limit : Nat) (rest : List Char) (last : DecodeStep F C) : Pulled F C → Prop where
  | next {first rest' : List Char} {after : FromText} (split : rest = first ++ '\n' :: rest') (free : '\n' ∉ first)
      (same : after.limit = limit) (holds : after.Holds rest' last) :
      TextPull limit rest last (some (line (stripCarriageReturn first), after))
  | tooLong {after : FromText} (free : '\n' ∉ rest) (long : limit < width rest) :
      TextPull limit rest last (some (.lineTooLong limit, after))
  | last {after : FromText} (free : '\n' ∉ rest) (short : width rest ≤ limit) (nonempty : rest ≠ []) (ended : last = .ended)
      (done : after.done = true) : TextPull limit rest last (some (line (stripCarriageReturn rest), after))
  | ends {after : FromText} (empty : rest = []) (ended : last = .ended) : TextPull limit rest last (some (.ended, after))
  | malformed {offset : Nat} {after : FromText} (free : '\n' ∉ rest) (short : width rest ≤ limit) (fails : last = .malformed offset) :
      TextPull limit rest last (some (.malformed offset, after))

/-- The limit is kept: no line that a newline ends is longer. -/
def Kept (limit : Nat) (text : List Char) : Prop := ∀ line ∈ terminated text, width line ≤ limit

variable {limit : Nat}

theorem Kept.next {first rest : List Char} (free : '\n' ∉ first) (kept : Kept limit (first ++ '\n' :: rest)) :
    width first ≤ limit ∧ Kept limit rest := by
  unfold Kept at kept
  rw [terminated_newline free, forall_mem_cons] at kept
  exact kept

/-- Text that is held too long is no beginning of a line that a newline ends. -/
theorem Kept.free {held front : List Char} (kept : Kept limit (held ++ front)) (none : '\n' ∉ held)
    (long : limit < width held) : '\n' ∉ held ++ front := by
  rcases first_line (held ++ front) with free | ⟨first, rest, free, split⟩
  · exact free
  · rw [split] at kept
    have short := (kept.next free).1
    -- The first line goes on behind what is held, so it is at least as long.
    have longer : width held ≤ width first := by
      rcases append_eq_append_iff.mp split with ⟨more, firstSplit, _⟩ | ⟨more, heldSplit, restSplit⟩
      · rw [firstSplit, Text.width_append]
        omega
      · cases more with
        | nil =>
          rw [heldSplit, append_nil]
        | cons =>
          rw [cons_append, List.cons.injEq] at restSplit
          apply absurd _ none
          rw [heldSplit, restSplit.1]
          simp
    omega

/-- What is left at the end is flushed. -/
theorem pullFrom_flush {self : FromText} {last : DecodeStep F C} (passes : Nat)
    (missing : self.carry.nextLine = none) (ended : self.inputEnded = true) (ends : last = .ended)
    (short : width self.carry.text ≤ self.limit) :
    TextPull self.limit self.carry.text last (pullFrom (passes + 1) self) := by
  unfold pullFrom
  rw [missing]
  rw [ended, if_pos rfl]
  unfold flushRemainder LineCarry.flush
  by_cases empty : self.carry.text = []
  · rw [empty, isEmpty_nil, if_pos rfl]
    exact .ends rfl ends
  · rw [if_neg (by simpa using empty)]
    exact .last (LineCarry.nextLine_none missing) short empty ends rfl

theorem pullFrom_pull {self : FromText} {rest : List Char} {last : DecodeStep F C} (passes : Nat)
    (holds : self.Holds rest last) (kept : Kept self.limit rest)
    (enough : self.decoder.pending.length + (if self.inputEnded then 1 else 2) < passes) :
    TextPull self.limit rest last (pullFrom passes self) := by
  induction passes generalizing self with
  | zero => omega
  | succ passes ih =>
    cases found : self.carry.nextLine with
    | some answer =>
      unfold pullFrom
      rw [found]
      obtain ⟨next, carry⟩ := answer
      obtain ⟨first, free, split, rfl⟩ := LineCarry.nextLine_some found
      cases ended : self.inputEnded with
      | true =>
        obtain ⟨whole, ends, short⟩ := holds.ends ended
        rw [split] at whole
        refine .next whole free rfl ⟨holds.live, fun _ => ⟨rfl, ends, ?_⟩, fun goes => by cases goes⟩
        rw [whole, Text.width_append, Text.width_cons] at short
        show width carry.text ≤ self.limit
        omega
      | false =>
        obtain ⟨front, owes, whole⟩ := holds.goesOn ended
        have split' : rest = first ++ '\n' :: (carry.text ++ front) := by
          rw [whole, split, append_assoc, cons_append]
        exact .next split' free rfl ⟨holds.live, (fun ends => by cases ends), fun _ => ⟨front, owes, rfl⟩⟩
    | none =>
      have free := LineCarry.nextLine_none found
      cases ended : self.inputEnded with
      | true =>
        obtain ⟨whole, ends, short⟩ := holds.ends ended
        rw [whole]
        exact pullFrom_flush passes found ended ends (whole ▸ short)
      | false =>
        unfold pullFrom
        rw [found]
        rw [ended]
        obtain ⟨front, owes, whole⟩ := holds.goesOn ended
        rw [ended, if_neg (by decide)] at enough
        by_cases long : self.limit < self.carry.len
        · rw [if_pos long]
          rw [whole] at kept ⊢
          refine .tooLong (kept.free free long) ?_
          unfold LineCarry.len at long
          rw [Text.width_append]
          omega
        · rw [if_neg long]
          rcases owes.pull with ⟨emitted, more, decoder, pulled, _, rfl, owes', less⟩ | ⟨decoder, pulled, rfl, noValue⟩
          · rw [pulled]
            dsimp [Decoder.text]
            rw [String.toList_ofList]
            have holds' : Holds { self with
                decoder
                carry := self.carry.push emitted
                inputEnded := false } rest last :=
              ⟨holds.live, (fun ends => by cases ends), fun _ => ⟨more, owes', by rw [whole, ← append_assoc]; rfl⟩⟩
            exact ih holds' kept (by
              show decoder.pending.length + 2 < passes
              omega)
          · rw [pulled]
            rw [append_nil] at whole
            have short : width rest ≤ self.limit := by
              rw [whole]
              exact Nat.le_of_not_lt long
            cases last with
            | value value => exact absurd rfl (noValue value)
            | ended =>
              obtain ⟨more, rfl⟩ : ∃ more, passes = more + 1 := ⟨passes - 1, by omega⟩
              have step := @pullFrom_flush F C { self with decoder, inputEnded := true } .ended more found rfl rfl
                (whole ▸ short)
              rw [whole]
              exact step
            | malformed => exact .malformed (whole ▸ free) short rfl

/-- The text behind the last newline. -/
def unterminated (text : List Char) : List Char := (text.splitOn '\n').getLast?.getD []

theorem unterminated_free {text : List Char} (free : '\n' ∉ text) : unterminated text = text := by
  unfold unterminated
  rw [splitOn_free free]
  rfl

theorem unterminated_newline {line : List Char} (free : '\n' ∉ line) (rest : List Char) :
    unterminated (line ++ '\n' :: rest) = unterminated rest := by
  unfold unterminated
  rw [splitOn_newline free, List.getLast?_cons_of_ne_nil (splitOn_ne_nil '\n' rest)]

def lineValue (line : List Char) : Value F C := .string (String.ofList (stripCarriageReturn line))

section Kept

variable {limit : Nat} {rest : List Char} {last : DecodeStep F C}

/-- The lines that a newline ends and what follows them. -/
def outcome (limit : Nat) (rest : List Char) (last : DecodeStep F C) :
    List (Value F C) × FromTextStep F C :=
  let ends := lastSteps limit (unterminated rest) last
  ((terminated rest).map lineValue ++ ends.1.map lineValue, ends.2)

theorem drain_kept {self : FromText} (pulls : Nat) (holds : self.Holds rest last) (noValue : ∀ value, last ≠ .value value)
    (kept : Kept self.limit rest) (more : rest.length + 1 < pulls) : drain pulls self = some (outcome self.limit rest last) := by
  induction pulls generalizing self rest with
  | zero => omega
  | succ pulls ih =>
    have step := pullFrom_pull (self.decoder.pending.length + 3) holds kept (by split <;> omega)
    have pulled : (self.pull : Pulled F C) = pullFrom (self.decoder.pending.length + 3) self := by
      unfold pull
      rw [holds.live]
      rfl
    rw [← pulled] at step
    unfold drain outcome
    generalize (self.pull : Pulled F C) = answer at step ⊢
    cases step with
    | next split free same holds' =>
      subst split
      rw [terminated_newline free, unterminated_newline free]
      dsimp [line]
      rw [ih holds' (same.symm ▸ (kept.next free).2) (by
        simp only [length_append, length_cons] at more
        omega), same]
      rfl
    | tooLong free long =>
      rw [terminated_free free, unterminated_free free]
      unfold lastSteps
      rw [if_pos long]
      rfl
    | last free short nonempty ended done =>
      subst ended
      rw [terminated_free free, unterminated_free free]
      unfold lastSteps
      rw [if_neg (Nat.not_lt.mpr short)]
      obtain ⟨pulls, rfl⟩ : ∃ before, pulls = before + 1 := ⟨pulls - 1, by
        omega⟩
      dsimp [line]
      unfold drain pull
      rw [done, if_neg nonempty]
      rfl
    | ends empty ended =>
      subst empty ended
      rfl
    | malformed free short fails =>
      subst fails
      rw [terminated_free free, unterminated_free free]
      unfold lastSteps
      rw [if_neg (Nat.not_lt.mpr short)]
      rfl

end Kept

/-! ## Two ways to cut a line that is too long -/

section Cuts

variable {self : FromText}

theorem pullFrom_line {first rest : List Char} (split : self.carry.text = first ++ '\n' :: rest) (free : '\n' ∉ first) (passes : Nat) :
    (pullFrom (passes + 1) self : Pulled F C) =
      some (line (stripCarriageReturn first), { self with carry := ⟨rest⟩ }) := by
  cases found : self.carry.nextLine with
  | none =>
    have absent := LineCarry.nextLine_none found
    rw [split] at absent
    simp at absent
  | some answer =>
    obtain ⟨_, carry⟩ := answer
    obtain ⟨other, otherFree, otherSplit, rfl⟩ := LineCarry.nextLine_some found
    -- A first line is first in one way only.
    have same := splitOn_newline free rest
    rw [← split, otherSplit, splitOn_newline otherFree] at same
    have firsts : other = first := (List.cons.inj same).1
    subst firsts
    rw [split] at otherSplit
    have rests : rest = carry.text := (List.cons.inj (append_cancel_left otherSplit)).2
    unfold pullFrom
    rw [found, rests]

theorem pullFrom_tooLong (free : '\n' ∉ self.carry.text) (goesOn : self.inputEnded = false)
    (long : self.limit < width self.carry.text) (passes : Nat) :
    (pullFrom (passes + 1) self : Pulled F C) = some (.lineTooLong self.limit, { self with done := true }) := by
  have missing : self.carry.nextLine = none := by
    cases found : self.carry.nextLine with
    | none => rfl
    | some answer =>
      obtain ⟨_, _, split, _⟩ := LineCarry.nextLine_some (found : _ = some (answer.1, answer.2))
      rw [split] at free
      simp at free
  unfold pullFrom
  rw [missing]
  rw [goesOn, if_neg (by decide), if_pos (show self.limit < self.carry.len from long)]

/-- Lines that are held with their newlines are delivered whatever their length is. -/
theorem drain_held (pulls : Nat) (live : self.done = false) {values : List (Value F C)}
    {last : FromTextStep F C} (drained : drain pulls self = some (values, last)) :
    (terminated self.carry.text).length ≤ values.length := by
  induction pulls generalizing self values with
  | zero => cases drained
  | succ _ ih =>
    rcases first_line self.carry.text with free | ⟨_, rest, free, split⟩
    · rw [terminated_free free]
      exact Nat.zero_le _
    · unfold drain pull at drained
      rw [live, if_neg (by decide), pullFrom_line split free] at drained
      obtain ⟨⟨_, _⟩, onward, same⟩ := Option.map_eq_some_iff.mp drained
      cases same
      have more := @ih { self with carry := ⟨rest⟩ } live _ onward
      rw [split, terminated_newline free, length_cons, length_cons]
      exact Nat.succ_le_succ more

/-- Text behind them that is too long ends the reading. -/
theorem drain_tooLong (pulls : Nat) (live : self.done = false) (goesOn : self.inputEnded = false)
    (long : self.limit < width (unterminated self.carry.text)) {values : List (Value F C)}
    {last : FromTextStep F C} (drained : drain pulls self = some (values, last)) :
    values.length = (terminated self.carry.text).length := by
  induction pulls generalizing self values with
  | zero => cases drained
  | succ _ ih =>
    unfold drain pull at drained
    rw [live, if_neg (by decide)] at drained
    rcases first_line self.carry.text with free | ⟨_, rest, free, split⟩
    · rw [unterminated_free free] at long
      rw [pullFrom_tooLong free goesOn long] at drained
      cases drained
      rw [terminated_free free]
      rfl
    · rw [pullFrom_line split free] at drained
      rw [split, unterminated_newline free] at long
      obtain ⟨⟨_, _⟩, onward, same⟩ := Option.map_eq_some_iff.mp drained
      cases same
      have more := @ih { self with carry := ⟨rest⟩ } live goesOn long _ onward
      rw [split, terminated_newline free, length_cons, length_cons, more]

theorem pullFrom_reads {text : List Char} {decoder : Decoder} (passes : Nat) (missing : self.carry.nextLine = none)
    (goesOn : self.inputEnded = false) (short : self.carry.len ≤ self.limit)
    (pulled : (self.decoder.pull : Decoder.Pulled F C) = some (Decoder.text text, decoder)) :
    (pullFrom (passes + 1) self : Pulled F C) =
      pullFrom passes { self with decoder, carry := self.carry.push text } := by
  rw [pullFrom, missing]
  rw [goesOn, if_neg (by decide), if_neg (Nat.not_lt.mpr short), pulled]
  dsimp [Decoder.text]
  rw [String.toList_ofList, ← goesOn]

/-- The first chunk is held as soon as it is decoded. -/
theorem drain_loaded (pulls : Nat) {text : List Char} {tail : List UInt8} (chunks : List (List UInt8)) (limit : Nat)
    (nonempty : text ≠ []) (stuck : nextScalar tail = none) (decides : '\n' ∈ text ∨ limit < width text) :
    ∃ decoder, (drain (pulls + 1) (fromText ((bytes text ++ tail) :: chunks) limit) :
        Option (List (Value F C) × FromTextStep F C)) =
      drain (pulls + 1) { decoder, carry := ⟨text⟩, limit } := by
  obtain ⟨decoder, emitted⟩ := Decoder.decodeChunks_emits chunks nonempty stuck
  refine ⟨decoder, ?_⟩
  obtain ⟨reader, isReader⟩ : ∃ reader, reader = fromText ((bytes text ++ tail) :: chunks) limit := ⟨_, rfl⟩
  obtain ⟨held, isHeld⟩ : ∃ held : FromText, held = { decoder, carry := ⟨text⟩, limit } := ⟨_, rfl⟩
  have loaded : ∀ passes, (pullFrom (passes + 1) reader : Pulled F C) = pullFrom passes held := by
    intro passes
    subst isReader isHeld
    exact pullFrom_reads passes rfl rfl (Nat.zero_le limit) emitted
  have same : (reader.pull : Pulled F C) = held.pull := by
    have live : reader.done = false := by rw [isReader]; rfl
    have live' : held.done = false := by rw [isHeld]
    unfold pull
    rw [live, live', if_neg (by decide), if_neg (by decide), loaded]
    rcases first_line text with free | ⟨first, rest, free, split⟩
    · have long : limit < width text := decides.resolve_left free
      subst isHeld
      rw [pullFrom_tooLong free rfl long, pullFrom_tooLong free rfl long]
    · have split' : held.carry.text = first ++ '\n' :: rest := by rw [isHeld]; exact split
      rw [pullFrom_line split' free, pullFrom_line split' free]
  rw [← isReader, ← isHeld]
  unfold drain
  rw [same]

end Cuts

/-- A line that a newline ends, at the end of what is in front of that newline. -/
theorem mem_terminated {text line : List Char} (member : line ∈ terminated text) :
    ∃ front back, text = front ++ '\n' :: back ∧ unterminated front = line ∧
      (terminated front).length < (terminated text).length := by
  induction size : text.length using Nat.strong_induction_on generalizing text with
  | _ size ih =>
    subst size
    rcases first_line text with free | ⟨first, rest, free, rfl⟩
    · rw [terminated_free free] at member
      contradiction
    · rw [terminated_newline free] at member
      rcases mem_cons.mp member with rfl | later
      · refine ⟨line, rest, rfl, unterminated_free free, ?_⟩
        rw [terminated_free free, terminated_newline free]
        exact Nat.succ_pos _
      · obtain ⟨front, back, rfl, ends, fewer⟩ := ih rest.length (by
          rw [length_append, length_cons]
          omega) later rfl
        refine ⟨first ++ '\n' :: front, back, by rw [append_assoc, cons_append], ?_, ?_⟩
        · rw [unterminated_newline free, ends]
        · rw [terminated_newline free, terminated_newline free, length_cons, length_cons]
          exact Nat.succ_lt_succ fewer

theorem width_stripCarriageReturn (line : List Char) : width (stripCarriageReturn line) ≤ width line := by
  unfold stripCarriageReturn
  split
  · next ends =>
    obtain ⟨front, rfl⟩ := List.getLast?_eq_some_iff.mp ends
    rw [dropLast_concat, Text.width_append]
    omega
  · exact Nat.le_refl _

/-! ## When the limit is uniform -/

variable (F C) in
/-- Wherever the input is cut into chunks, the same lines are delivered and the same step ends them,
and no line is longer than the limit; `more` pulls than there are bytes are always enough. -/
def Uniform (input : List UInt8) (limit : Nat) : Prop :=
  ∃ (lines : List String) (last : FromTextStep F C),
    (∀ chunks : List (List UInt8), chunks.flatten = input → ∀ more,
      drain (input.length + 2 + more) (fromText chunks limit) = some (lines.map .string, last)) ∧
    ∀ line ∈ lines, width line.toList ≤ limit

theorem Uniform.kept {input : List UInt8} (uniform : Uniform F C input limit) :
    Kept limit (decodeWhole input : List Char × DecodeStep F C).1 := by
  obtain ⟨lines, last, same, _⟩ := uniform
  obtain ⟨text, tail, rfl, stuck⟩ := Text.exists_text input
  have decoded : (decodeWhole (bytes text ++ tail) : List Char × DecodeStep F C).1 = text := by
    by_cases empty : tail = []
    · rw [empty, append_nil]
      unfold decodeWhole
      rw [Str.fromUtf8_bytes]
    · rw [decodeWhole_stuck stuck empty]
  rw [decoded]
  intro line member
  by_contra long
  obtain ⟨front, back, rfl, ends, fewer⟩ := mem_terminated member
  have frontNonempty : front ≠ [] := by
    rintro rfl
    apply long
    rw [← ends]
    exact Nat.zero_le _
  have decides : '\n' ∈ front ∨ limit < width front := by
    by_cases free : '\n' ∈ front
    · exact .inl free
    · right
      rw [unterminated_free free] at ends
      rw [ends]
      omega
  -- In one chunk the line is delivered; cut before its newline, it ends the reading.
  have whole := same [bytes (front ++ '\n' :: back) ++ tail] (by simp) 0
  obtain ⟨decoder, loaded⟩ := @drain_loaded F C ((bytes (front ++ '\n' :: back) ++ tail).length + 1)
    (front ++ '\n' :: back) tail [] limit (by simp) stuck (.inl (by simp))
  rw [loaded] at whole
  have all := drain_held _ rfl whole
  have cut := same [bytes front ++ [], bytes ('\n' :: back) ++ tail] (by
    simp [Text.bytes_append]) 0
  obtain ⟨decoder', loaded'⟩ := @drain_loaded F C ((bytes (front ++ '\n' :: back) ++ tail).length + 1)
    front [] [bytes ('\n' :: back) ++ tail] limit frontNonempty Text.nextScalar_nil decides
  rw [loaded'] at cut
  have some := drain_tooLong _ rfl rfl (by
    show limit < width (unterminated front)
    rw [ends]
    omega) cut
  change (terminated (front ++ '\n' :: back)).length ≤ _ at all
  change _ = (terminated front).length at some
  omega

theorem Kept.uniform {input : List UInt8} (kept : Kept limit (decodeWhole input : List Char × DecodeStep F C).1) : Uniform F C input limit := by
  obtain ⟨⟨text, last⟩, whole⟩ : ∃ answer, answer = (decodeWhole input : List Char × DecodeStep F C) := ⟨_, rfl⟩
  rw [← whole] at kept
  obtain ⟨front, tail, split, stuck⟩ := Text.exists_text input
  have known : text = front ∧ ∀ value, last ≠ .value value := by
    rw [split] at whole
    by_cases empty : tail = []
    · rw [empty, append_nil] at whole
      unfold decodeWhole at whole
      rw [Str.fromUtf8_bytes] at whole
      cases whole
      exact ⟨rfl, fun value impossible => by cases impossible⟩
    · rw [decodeWhole_stuck stuck empty] at whole
      cases whole
      exact ⟨rfl, fun value impossible => by cases impossible⟩
  have short : text.length ≤ input.length := by
    have width := Text.length_le_width text
    rw [known.1, ← Text.bytes_length] at width
    rw [known.1, split, length_append]
    omega
  refine ⟨(terminated text ++ (lastSteps limit (unterminated text) last).1).map (String.ofList ∘ stripCarriageReturn),
    (outcome limit text last).2, ?_, ?_⟩
  · intro chunks same more
    have owes := decodeChunks_owes chunks (same ▸ whole.symm)
    have holds : (fromText chunks limit).Holds text last :=
      ⟨rfl, (fun ends => by cases ends), fun _ => ⟨text, owes, rfl⟩⟩
    rw [drain_kept _ holds known.2 kept (by omega)]
    rw [map_append, map_append, map_map, map_map]
    rfl
  · intro line member
    obtain ⟨raw, listed, rfl⟩ := mem_map.mp member
    rw [Function.comp_apply, String.toList_ofList]
    refine (width_stripCarriageReturn raw).trans ?_
    rcases mem_append.mp listed with before | after
    · exact kept raw before
    · unfold lastSteps at after
      split at after
      · cases after
      · next fits =>
        cases last with
        | ended =>
          dsimp only at after
          split at after
          · cases after
          · rw [mem_singleton.mp after]
            exact Nat.le_of_not_lt fits
        | malformed | value => cases after

/-- The limit is uniform exactly when it keeps every line that a newline ends, with the carriage
return before that newline. -/
theorem uniform_iff (input : List UInt8) (limit : Nat) :
    Uniform F C input limit ↔ Kept limit (decodeWhole input : List Char × DecodeStep F C).1 :=
  ⟨Uniform.kept, Kept.uniform⟩

/-- A line of two bytes under a limit of one. -/
theorem not_uniform_two_bytes : ¬Uniform Empty Empty (bytes ['a', 'b', '\n']) 1 := by
  intro uniform
  have kept := uniform.kept
  unfold decodeWhole at kept
  have listed : ['a', 'b'] ∈ terminated ['a', 'b', '\n'] := by decide
  exact absurd (kept ['a', 'b'] listed) (by decide)

end FromText

end Opaal.Runtime
