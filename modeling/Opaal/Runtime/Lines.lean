import Opaal.Runtime.Stream
import Opaal.Text.Split
import Opaal.Text.Utf8

/-!
# Lines

The `lines` stage splits the text of a stream into one line a pull.  Text is carried from one item
of the stream to the next until a newline is found in it, so the lines are those of the whole text,
wherever it is cut into items.
-/

namespace Opaal.Runtime

open List

open Opaal.Text (splitOnce)
open String (ofList toList)

variable {F C : Type}

/-! ## Carried text -/

/-- Removes a single trailing carriage return. -/
def stripCarriageReturn (line : List Char) : List Char := if line.getLast? = some '\r' then line.dropLast else line

/-- Text pulled but not yet emitted as a line. -/
structure LineCarry where
  text : List Char := []
deriving DecidableEq

namespace LineCarry

def push (self : LineCarry) (text : List Char) : LineCarry := ⟨self.text ++ text⟩

/-- The number of bytes held. -/
def len (self : LineCarry) : Nat := Text.width self.text

def nextLine (self : LineCarry) : Option (List Char × LineCarry) :=
  (splitOnce ['\n'] self.text).map fun (line, rest) => (stripCarriageReturn line, ⟨rest⟩)

/-- The last line when no newline ends it. -/
def flush (self : LineCarry) : Option (List Char × LineCarry) :=
  if self.text.isEmpty then none else some (stripCarriageReturn self.text, ⟨[]⟩)

end LineCarry

/-! ## The stage -/

inductive LineStep (F C : Type) where
  | line (value : Value F C)
  | ended
  | notText (actual : String)
  | failed (error : F)
  | cancelled (reason : CancelReason)

structure LineSplitter (F C : Type) where
  input : ValueStream F C
  carry : LineCarry := {}
  inputEnded : Bool := false
  done : Bool := false

def lines (input : ValueStream F C) : LineSplitter F C := { input }

namespace LineSplitter

def line (line : List Char) : LineStep F C := .line (.string (ofList line))

def flushRemainder (self : LineSplitter F C) : LineStep F C × LineSplitter F C :=
  match self.carry.flush with
  | some (last, carry) => (line last, { self with carry, done := true })
  | none => (.ended, { self with done := true })

/-- The loop of a pull, in at most so many passes. -/
def pullFrom : Nat → LineSplitter F C → Option (LineStep F C × LineSplitter F C)
  | 0, _ => none
  | passes + 1, self =>
    match self.carry.nextLine with
    | some (next, carry) => some (line next, { self with carry })
    | none =>
      if self.inputEnded then some self.flushRemainder
      else
        match self.input.pull with
        | (.item (.string text), input) => pullFrom passes { self with input, carry := self.carry.push text.toList }
        | (.item other, input) => some (.notText other.familyName, { self with input, done := true })
        | (.ended, input) => pullFrom passes { self with input, inputEnded := true }
        | (.failed error, input) => some (.failed error, { self with input, done := true })
        | (.cancelled reason, input) => some (.cancelled reason, { self with input, done := true })

def pull (passes : Nat) (self : LineSplitter F C) :
    Option (LineStep F C × LineSplitter F C) :=
  if self.done then some (.ended, self) else pullFrom passes self

/-- The lines of a splitter and the step that ends them, in at most so many pulls. -/
def drain (passes : Nat) :
    Nat → LineSplitter F C → Option (List (Value F C) × LineStep F C)
  | 0, _ => none
  | pulls + 1, self =>
    match self.pull passes with
    | none => none
    | some (.line value, after) => (drain passes pulls after).map fun (values, last) => (value :: values, last)
    | some (last, _) => some ([], last)

end LineSplitter

/-! ## The lines of a text -/

/-- The parts between newlines without a carriage return at their ends; what is behind the last
newline is a line when it is not empty. -/
def linesOf (text : List Char) : List (List Char) :=
  let parts := text.splitOn '\n'
  parts.dropLast.map stripCarriageReturn ++ (parts.getLast?.toList.filter (· ≠ [])).map stripCarriageReturn

theorem splitOn_free {text : List Char} (free : '\n' ∉ text) : text.splitOn '\n' = [text] := by
  induction text with
  | nil => exact splitOn_nil _
  | cons c text ih =>
    rw [mem_cons, not_or] at free
    rw [splitOn_cons_eq_if_modifyHead, if_neg (by simpa using Ne.symm free.1), ih free.2]
    rfl

theorem splitOn_newline {line : List Char} (free : '\n' ∉ line) (rest : List Char) :
    (line ++ '\n' :: rest).splitOn '\n' = line :: rest.splitOn '\n' := by
  induction line with
  | nil =>
    rfl
  | cons c line ih =>
    rw [mem_cons, not_or] at free
    rw [cons_append, splitOn_cons_eq_if_modifyHead, if_neg (by simpa using Ne.symm free.1), ih free.2]
    rfl

theorem linesOf_free {text : List Char} (free : '\n' ∉ text) :
    linesOf text = if text = [] then [] else [stripCarriageReturn text] := by
  unfold linesOf
  rw [splitOn_free free]
  by_cases empty : text = []
  · subst empty
    rfl
  · simp [empty]

theorem linesOf_newline {line : List Char} (free : '\n' ∉ line) (rest : List Char) :
    linesOf (line ++ '\n' :: rest) = stripCarriageReturn line :: linesOf rest := by
  have more := splitOn_ne_nil '\n' rest
  unfold linesOf
  rw [splitOn_newline free]
  simp [dropLast_cons_of_ne_nil more, List.getLast?_cons_of_ne_nil more]

/-! ## Carried lines -/

/-- Text without a newline is no line yet. -/
theorem splitOnce_newline_none {text : List Char} (missing : splitOnce ['\n'] text = none) : '\n' ∉ text := by
  induction text with
  | nil => exact not_mem_nil
  | cons c text ih =>
    unfold splitOnce at missing
    cases start : ['\n'].isPrefixOf? (c :: text) with
    | some rest =>
      rw [start] at missing
      contradiction
    | none =>
      rw [start] at missing
      rw [mem_cons, not_or]
      refine ⟨?_, ih (Option.map_eq_none_iff.mp missing)⟩
      rintro rfl
      simp [List.isPrefixOf?] at start

theorem LineCarry.nextLine_some {self after : LineCarry} {next : List Char} (found : self.nextLine = some (next, after)) :
    ∃ line, '\n' ∉ line ∧ self.text = line ++ '\n' :: after.text ∧ next = stripCarriageReturn line := by
  obtain ⟨⟨line, rest⟩, split, same⟩ := Option.map_eq_some_iff.mp found
  cases same
  exact ⟨line, Text.splitOnce_first split, Text.splitOnce_eq split, rfl⟩

theorem LineCarry.nextLine_none {self : LineCarry} (missing : self.nextLine = none) : '\n' ∉ self.text :=
  splitOnce_newline_none (Option.map_eq_none_iff.mp missing)

namespace LineSplitter

/-- A stream that hands out some texts and ends. -/
def Provides : ValueStream F C → List String → Prop
  | stream, [] => stream.pull.1 = .ended
  | stream, text :: texts => stream.pull.1 = .item (.string text) ∧ Provides stream.pull.2 texts

/-- What is left of the whole text, in so many items. -/
structure Holds (splitter : LineSplitter F C) (rest : List Char) (items : Nat) : Prop where
  live : splitter.done = false
  ends : splitter.inputEnded = true → rest = splitter.carry.text
  goesOn : splitter.inputEnded = false → ∃ texts : List String, Provides splitter.input texts ∧
    rest = splitter.carry.text ++ texts.flatMap toList ∧ texts.length + 1 ≤ items

/-- A pull takes the first line of what is left. -/
inductive LinePull (rest : List Char) (items : Nat) : Option (LineStep F C × LineSplitter F C) → Prop where
  | next {first rest' : List Char} {after : LineSplitter F C} (split : rest = first ++ '\n' :: rest')
      (free : '\n' ∉ first) (holds : after.Holds rest' items) :
      LinePull rest items (some (line (stripCarriageReturn first), after))
  | last {after : LineSplitter F C} (free : '\n' ∉ rest) (nonempty : rest ≠ []) (done : after.done = true) :
      LinePull rest items (some (line (stripCarriageReturn rest), after))
  | ends {after : LineSplitter F C} (empty : rest = []) : LinePull rest items (some (.ended, after))

variable {rest : List Char} {self : LineSplitter F C}

theorem LinePull.more {items more : Nat} {pulled : Option (LineStep F C × LineSplitter F C)}
    (step : LinePull rest items pulled) (enough : items ≤ more) : LinePull rest more pulled := by
  cases step with
  | next split free holds =>
    refine .next split free ⟨holds.live, holds.ends, fun goes => ?_⟩
    obtain ⟨texts, provides, same, few⟩ := holds.goesOn goes
    exact ⟨texts, provides, same, by omega⟩
  | last free nonempty done => exact .last free nonempty done
  | ends empty => exact .ends empty

theorem pullFrom_pull {items : Nat} (passes : Nat) (holds : self.Holds rest items) (enough : items < passes) : LinePull rest items (pullFrom passes self) := by
  induction passes generalizing self items with
  | zero => omega
  | succ passes ih =>
    unfold pullFrom
    cases found : self.carry.nextLine with
    | some answer =>
      obtain ⟨next, carry⟩ := answer
      obtain ⟨first, free, split, rfl⟩ := LineCarry.nextLine_some found
      cases ended : self.inputEnded with
      | true =>
        refine .next ((holds.ends ended).trans split) free ⟨holds.live, fun _ => rfl, fun goes => ?_⟩
        cases goes
      | false =>
        obtain ⟨texts, provides, same, few⟩ := holds.goesOn ended
        have split' : rest = first ++ '\n' :: (carry.text ++ texts.flatMap toList) := by
          rw [same, split, append_assoc, cons_append]
        refine .next split' free ⟨holds.live, fun ends => ?_, fun _ => ⟨texts, provides, rfl, few⟩⟩
        cases ends
    | none =>
      have free := LineCarry.nextLine_none found
      cases ended : self.inputEnded with
      | true =>
        have whole := holds.ends ended
        rw [if_pos rfl]
        unfold flushRemainder LineCarry.flush
        by_cases empty : self.carry.text = []
        · rw [empty, isEmpty_nil, if_pos rfl]
          exact .ends (whole.trans empty)
        · rw [if_neg (by simpa using empty), ← whole]
          exact .last (whole ▸ free) (whole ▸ empty) rfl
      | false =>
        obtain ⟨texts, provides, same, few⟩ := holds.goesOn ended
        cases texts with
        | nil =>
          have pulled : self.input.pull = (.ended, self.input.pull.2) := Prod.ext provides rfl
          rw [pulled]
          rw [flatMap_nil, append_nil] at same
          have onward := @ih { self with input := self.input.pull.2, inputEnded := true } 0
            ⟨holds.live, fun _ => same, fun goes => by cases goes⟩
          exact (onward (by omega)).more (Nat.zero_le _)
        | cons text texts =>
          have pulled : self.input.pull = (.item (.string text), self.input.pull.2) := Prod.ext provides.1 rfl
          rw [pulled]
          rw [length_cons] at few
          have onward := @ih { self with
            input := self.input.pull.2
            carry := self.carry.push text.toList
            inputEnded := false } (items - 1) ⟨holds.live, (fun ends => by cases ends), fun _ => ⟨texts, provides.2, by
              rw [same, flatMap_cons, ← append_assoc]
              rfl, by omega⟩⟩
          exact (onward (by omega)).more (Nat.sub_le _ _)

/-- The values of a splitter are the lines of what is left. -/
theorem drain_lines {items passes : Nat} (pulls : Nat) (holds : self.Holds rest items) (enough : items < passes)
    (more : rest.length + 1 < pulls) :
    drain passes pulls self = some ((linesOf rest).map (.string ∘ ofList), .ended) := by
  induction pulls generalizing self rest with
  | zero => omega
  | succ pulls ih =>
    have step := pullFrom_pull passes holds enough
    have pulled : self.pull passes = pullFrom passes self := by
      unfold pull
      rw [holds.live]
      rfl
    rw [← pulled] at step
    unfold drain
    generalize self.pull passes = answer at step ⊢
    cases step with
    | next split free holds' =>
      subst split
      rw [linesOf_newline free]
      dsimp [line]
      rw [ih holds' (by
        simp only [length_append, length_cons] at more
        omega)]
      rfl
    | last free nonempty done =>
      rw [linesOf_free free, if_neg nonempty]
      obtain ⟨pulls, rfl⟩ : ∃ before, pulls = before + 1 := ⟨pulls - 1, by
        omega⟩
      dsimp [line]
      unfold drain pull
      rw [done]
      rfl
    | ends empty =>
      subst empty
      rfl

/-- Wherever a text is cut into items, the stage delivers its lines, each without the carriage
return at its end, and no line behind a final newline. -/
theorem lines_independent_of_chunks (stream : ValueStream F C) (texts : List String)
    (provides : Provides stream texts) (more : Nat) :
    let whole := texts.flatMap toList
    drain (texts.length + 2 + more) (whole.length + 2 + more) (lines stream) =
      some ((linesOf whole).map (.string ∘ ofList), .ended) := by
  intro whole
  have holds : (lines stream).Holds whole (texts.length + 1) :=
    ⟨rfl, (fun ends => by cases ends), fun _ => ⟨texts, provides, rfl, Nat.le_refl _⟩⟩
  exact drain_lines _ holds (by omega) (by omega)

/-- A stream of the items of a queue. -/
def queued (texts : List String) : ValueStream Empty Empty := .fromQueue 0 (texts.map .string)

/-- A carriage return and its newline in different items. -/
theorem lines_of_cut_terminator :
    drain (2 + 2 + 0) (4 + 2 + 0) (lines (queued ["a\r", "\nb"])) =
      some ((linesOf ['a', '\r', '\n', 'b']).map (.string ∘ ofList), .ended) :=
  lines_independent_of_chunks (queued ["a\r", "\nb"]) ["a\r", "\nb"] ⟨rfl, rfl, rfl⟩ 0

/-- The lines with carriage returns removed only before newlines. -/
def strippedBeforeNewlines (text : List Char) : List (List Char) :=
  let parts := text.splitOn '\n'
  parts.dropLast.map stripCarriageReturn ++ parts.getLast?.toList.filter (· ≠ [])

/-- A carriage return is also removed from a last line that no newline ends. -/
theorem lines_strip_unterminated :
    drain 3 3 (lines (queued ["a\r"])) ≠
      some ((strippedBeforeNewlines ['a', '\r']).map (.string ∘ ofList), .ended) := by
  have delivered : drain 3 3 (lines (queued ["a\r"])) = some ([.string "a"], .ended) := rfl
  have reference : strippedBeforeNewlines ['a', '\r'] = [['a', '\r']] := by decide
  intro same
  injection same with same
  injection same with values
  injection values with value
  injection value with text
  exact absurd text (by decide)

end LineSplitter

end Opaal.Runtime
