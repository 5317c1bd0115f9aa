import Opaal.Text.Decode

/-!
# Keys of a terminal

Bytes are decoded one at a time, since a serial line splits sequences anywhere.  An escape or a
character that is cut short gives way to what follows it; a control sequence takes the next
byte as its last one, so a control key pressed there is lost.
-/

namespace Opaal.Cli

open List
open Opaal.Text

/-- The most parameter bytes a recognized sequence ever carries. -/
def maxParameterBytes : Nat := 16

inductive Key where
  | char (c : Char)
  | backspace
  | delete
  | left
  | right
  | up
  | down
  | home
  | lineEnd
  | killToEnd
  | killToStart
  | killWordBack
  | complete
  | cancel
  | endOfFileOrDelete
  | enter

inductive KeyState where
  | ground
  | escape
  | controlSequence
  | utf8
deriving DecidableEq

structure KeyDecoder where
  state : KeyState
  pending : List UInt8
  utf8Remaining : Nat

/-- The key of a byte below 128 outside of sequences. -/
def asciiKey (byte : UInt8) : Option Key :=
  match byte with
  | 0x01 => some .home
  | 0x03 => some .cancel
  | 0x04 => some .endOfFileOrDelete
  | 0x05 => some .lineEnd
  | 0x08 | 0x7f => some .backspace
  | 0x09 => some .complete
  | 0x0a | 0x0d => some .enter
  | 0x0b => some .killToEnd
  | 0x15 => some .killToStart
  | 0x17 => some .killWordBack
  | byte => if byte < 0x20 then none else some (.char (Char.ofNat byte.toNat))

/-- The key of a control sequence, from its last byte and its parameters. -/
def finalKey (byte : UInt8) (parameters : List UInt8) : Option Key :=
  match byte, parameters with
  | 0x41, _ => some .up
  | 0x42, _ => some .down
  | 0x43, _ => some .right
  | 0x44, _ => some .left
  | 0x48, _ => some .home
  | 0x46, _ => some .lineEnd
  | 0x7e, [0x31] | 0x7e, [0x37] => some .home
  | 0x7e, [0x34] | 0x7e, [0x38] => some .lineEnd
  | 0x7e, [0x33] => some .delete
  | _, _ => none

namespace KeyDecoder

/-- A new decoder, which is also what a reset leaves. -/
def new : KeyDecoder := ⟨.ground, [], 0⟩

variable (self : KeyDecoder) (byte : UInt8)

def beginUtf8 : KeyDecoder :=
  if 0xc2 ≤ byte ∧ byte ≤ 0xdf then ⟨.utf8, [byte], 1⟩
  else if 0xe0 ≤ byte ∧ byte ≤ 0xef then ⟨.utf8, [byte], 2⟩
  else if 0xf0 ≤ byte ∧ byte ≤ 0xf4 then ⟨.utf8, [byte], 3⟩
  else self

def pushGround : Option Key × KeyDecoder :=
  if byte = 0x1b then (none, { self with state := .escape })
  else if byte < 0x80 then (asciiKey byte, self)
  else (none, self.beginUtf8 byte)

/-- A byte that does not go on with the character is taken on its own.  There is no result where the count
would fall below zero. -/
def pushUtf8 : Option (Option Key × KeyDecoder) :=
  if 0x80 ≤ byte ∧ byte ≤ 0xbf then
    match self.utf8Remaining with
    | 0 => none
    | remaining + 1 =>
      let pending := self.pending ++ [byte]
      if 0 < remaining then some (none, { self with pending, utf8Remaining := remaining })
      else some (((decode pending).bind head?).map .char, new)
  else some (new.pushGround byte)

def pushEscape : Option Key × KeyDecoder :=
  if byte = 0x5b ∨ byte = 0x4f then (none, { self with state := .controlSequence, pending := [] })
  else if byte = 0x1b then (none, self)
  else new.pushGround byte

def pushControlSequence : Option Key × KeyDecoder :=
  if byte = 0x1b then (none, { self with state := .escape, pending := [] })
  else if (0x30 ≤ byte ∧ byte ≤ 0x39) ∨ byte = 0x3b then
    if maxParameterBytes ≤ self.pending.length then (none, new)
    else (none, { self with pending := self.pending ++ [byte] })
  else (finalKey byte self.pending, new)

def push : Option (Option Key × KeyDecoder) :=
  match self.state with
  | .ground => some (self.pushGround byte)
  | .escape => some (self.pushEscape byte)
  | .controlSequence => some (self.pushControlSequence byte)
  | .utf8 => self.pushUtf8 byte

/-- Bytes one after another, with the keys that emerge. -/
def pushAll (self : KeyDecoder) : List UInt8 → Option (List Key × KeyDecoder)
  | [] => some ([], self)
  | byte :: rest => do
    let (key, after) ← self.push byte
    let (keys, last) ← after.pushAll rest
    return (key.toList ++ keys, last)

/-- What is pending is short, and a character waits for at most the bytes it still needs. -/
structure Invariant (decoder : KeyDecoder) : Prop where
  short : decoder.pending.length ≤ maxParameterBytes
  waiting : decoder.state = .utf8 → 0 < decoder.utf8Remaining ∧ decoder.pending.length + decoder.utf8Remaining ≤ 4

variable {self byte}

theorem invariant_new : new.Invariant := ⟨Nat.zero_le _, by simp [new]⟩

theorem pushGround_invariant (invariant : self.Invariant) : (self.pushGround byte).2.Invariant := by
  unfold pushGround
  split_ifs
  · exact ⟨invariant.short, by simp⟩
  · exact invariant
  · unfold beginUtf8
    dsimp only
    split_ifs
    iterate 3 exact ⟨by simp [maxParameterBytes], by simp⟩
    exact invariant

theorem pushEscape_invariant (invariant : self.Invariant) : (self.pushEscape byte).2.Invariant := by
  unfold pushEscape
  split_ifs
  · exact ⟨Nat.zero_le _, by simp⟩
  · exact invariant
  · exact pushGround_invariant invariant_new

theorem pushControlSequence_invariant (inside : self.state = .controlSequence) :
    (self.pushControlSequence byte).2.Invariant := by
  unfold pushControlSequence
  split_ifs with _ _ long
  · exact ⟨Nat.zero_le _, by simp⟩
  · exact invariant_new
  · exact ⟨by rw [length_append]; exact Nat.not_le.mp long, by simp [inside]⟩
  · exact invariant_new

theorem pushUtf8_invariant (positive : 0 < self.utf8Remaining) (few : self.pending.length + self.utf8Remaining ≤ 4) :
    ∃ key after, self.pushUtf8 byte = some (key, after) ∧ after.Invariant := by
  unfold pushUtf8
  split
  · split
    · omega
    · dsimp only
      split_ifs with more
      · refine ⟨_, _, rfl, ?_, fun _ => ⟨more, ?_⟩⟩
        all_goals
          simp only [length_append, length_singleton, maxParameterBytes]
          omega
      · exact ⟨_, _, rfl, invariant_new⟩
  · exact ⟨_, _, rfl, pushGround_invariant invariant_new⟩

/-- One byte: there is a result, and what is pending stays short. -/
theorem push_invariant (invariant : self.Invariant) (byte : UInt8) :
    ∃ key after, self.push byte = some (key, after) ∧ after.Invariant := by
  unfold push
  split
  · exact ⟨_, _, rfl, pushGround_invariant invariant⟩
  · exact ⟨_, _, rfl, pushEscape_invariant invariant⟩
  · next inside => exact ⟨_, _, rfl, pushControlSequence_invariant inside⟩
  · next waits => exact pushUtf8_invariant (invariant.waiting waits).1 (invariant.waiting waits).2

theorem pushAll_invariant (invariant : self.Invariant) (history : List UInt8) :
    ∃ keys after, self.pushAll history = some (keys, after) ∧ after.Invariant := by
  induction history generalizing self with
  | nil => exact ⟨[], self, rfl, invariant⟩
  | cons byte rest ih =>
    obtain ⟨key, middle, pushed, kept⟩ := push_invariant invariant byte
    obtain ⟨keys, after, ran, ended⟩ := ih kept
    exact ⟨key.toList ++ keys, after, by simp [pushAll, pushed, ran], ended⟩

/-! ## Control keys -/

def IsControl (byte : UInt8) : Prop := byte < 0x20 ∨ byte = 0x7f

instance (byte : UInt8) : Decidable (IsControl byte) := inferInstanceAs (Decidable (_ ∨ _))

/-- Only a control sequence takes a control key for a byte of its own. -/
theorem push_control {key : Key} (control : IsControl byte) (means : asciiKey byte = some key) :
    (∃ after, self.push byte = some (some key, after) ∧ after.state = .ground) ↔ self.state ≠ .controlSequence := by
  have ordinary : byte ≠ 0x1b := by
    rintro rfl
    contradiction
  have small : byte < 0x80 := by grind [IsControl]
  have ground (decoder : KeyDecoder) : decoder.pushGround byte = (some key, decoder) := by
    rw [pushGround, if_neg ordinary, if_pos small, means]
  unfold push
  split
  · next here =>
    rw [ground, here]
    exact ⟨fun _ => nofun, fun _ => ⟨_, rfl, here⟩⟩
  · next here =>
    rw [pushEscape, if_neg (by grind [IsControl]), if_neg ordinary, ground, here]
    exact ⟨fun _ => nofun, fun _ => ⟨_, rfl, rfl⟩⟩
  · next here =>
    have final : finalKey byte self.pending = none := by
      unfold finalKey
      split <;> first | rfl | exact absurd control (by decide)
    rw [pushControlSequence, if_neg ordinary, if_neg (by grind [IsControl]), final, here]
    exact ⟨nofun, fun other => absurd rfl other⟩
  · next here =>
    rw [pushUtf8, if_neg (by grind [IsControl]), ground, here]
    exact ⟨fun _ => nofun, fun _ => ⟨_, rfl, rfl⟩⟩

/-! ## Text -/

theorem pushAll_append (front back : List UInt8) : self.pushAll (front ++ back) = do
    let (keys, middle) ← self.pushAll front
    let (more, last) ← middle.pushAll back
    return (keys ++ more, last) := by
  induction front generalizing self with
  | nil => simp [pushAll]
  | cons byte front ih => simp [pushAll, ih, Option.bind_assoc]

/-- The bytes a character still needs. -/
theorem pushAll_continuations {c : Char} {rest : List UInt8} (waits : self.state = .utf8) (nonempty : rest ≠ [])
    (inside : ∀ byte ∈ rest, IsContinuation byte) (count : self.utf8Remaining = rest.length)
    (whole : decode (self.pending ++ rest) = some [c]) : self.pushAll rest = some ([.char c], new) := by
  induction rest generalizing self with
  | nil => contradiction
  | cons byte rest ih =>
    have goesOn : 0x80 ≤ byte ∧ byte ≤ 0xbf := by
      have range := inside byte mem_cons_self
      unfold IsContinuation at range
      simp only [UInt8.le_iff_toNat_le, UInt8.reduceToNat]
      omega
    rw [append_cons] at whole
    cases rest with
    | nil =>
      rw [append_nil] at whole
      simp [pushAll, push, waits, pushUtf8, goesOn, count, whole]
    | cons next rest =>
      have onward := @ih { self with pending := self.pending ++ [byte], utf8Remaining := rest.length + 1 } waits
        (cons_ne_nil _ _) (fun byte listed => inside byte (mem_cons_of_mem _ listed)) rfl whole
      rw [pushAll, push, waits]
      simp [pushUtf8, goesOn, count, onward]

/-- The first byte says how many follow. -/
theorem beginUtf8_encoded {c : Char} (wide : 0x80 ≤ c.toNat) : ∃ lead rest, String.utf8EncodeChar c = lead :: rest ∧
    rest ≠ [] ∧ 0x80 ≤ lead ∧ self.beginUtf8 lead = ⟨.utf8, [lead], rest.length⟩ := by
  have valid : c.toNat < 0x110000 := by
    have := c.valid
    grind [Char.toNat]
  unfold String.utf8EncodeChar beginUtf8
  simp only [UInt8.le_iff_toNat_le, UInt8.reduceToNat]
  change 0x80 ≤ c.val.toNat at wide
  change c.val.toNat < 0x110000 at valid
  split_ifs
  · omega
  all_goals
    refine ⟨_, _, rfl, by simp, ?_⟩
    simp only [UInt8.toNat_ofNat']
    constructor
    · omega
    · grind

def IsPrintable (c : Char) : Prop := 0x20 ≤ c.toNat ∧ c.toNat ≠ 0x7f

theorem asciiKey_printable (low : 0x20 ≤ byte) (other : byte ≠ 0x7f) :
    asciiKey byte = some (.char (Char.ofNat byte.toNat)) := by
  unfold asciiKey
  split
  case h_13 => rw [if_neg (UInt8.not_lt.mpr low)]
  all_goals first | exact absurd low (by decide) | exact absurd rfl other

theorem pushAll_char {c : Char} (printable : IsPrintable c) (here : self.state = .ground) :
    ∃ after, self.pushAll (String.utf8EncodeChar c) = some ([.char c], after) ∧ after.state = .ground := by
  by_cases wide : 0x80 ≤ c.toNat
  · obtain ⟨lead, rest, encoded, nonempty, high, begun⟩ := @beginUtf8_encoded self c wide
    obtain ⟨_, _, shape, _, inside⟩ := Text.utf8EncodeChar_shape c
    cases encoded.symm.trans shape
    have whole := Text.decode_bytes [c]
    rw [Text.bytes_cons, encoded] at whole
    have ended := @pushAll_continuations ⟨.utf8, [lead], rest.length⟩ c rest rfl nonempty inside rfl (by simpa using whole)
    have pushed : self.push lead = some (none, ⟨.utf8, [lead], rest.length⟩) := by
      rw [push, here, pushGround, if_neg (by grind), if_neg (UInt8.not_lt.mpr high), begun]
    rw [encoded]
    exact ⟨new, by simp [pushAll, pushed, ended], rfl⟩
  · have small : c.toNat < 0x80 := Nat.not_le.mp wide
    have same : (UInt8.ofNat c.toNat).toNat = c.toNat := UInt8.toNat_ofNat_of_lt' (small.trans (by decide))
    have key : asciiKey (UInt8.ofNat c.toNat) = some (.char c) := by
      rw [asciiKey_printable, same, Char.ofNat_toNat]
      · exact UInt8.le_iff_toNat_le.mpr (by rw [same]; exact printable.1)
      · intro deleted
        exact printable.2 (same ▸ congrArg UInt8.toNat deleted)
    have pushed : self.push (UInt8.ofNat c.toNat) = some (some (.char c), self) := by
      rw [push, here, pushGround, if_neg, if_pos, key]
      · exact UInt8.lt_iff_toNat_lt.mpr (by rw [same]; exact small)
      · intro escape
        exact absurd printable.1 (by rw [← same, escape]; decide)
    have encoded : String.utf8EncodeChar c = [UInt8.ofNat c.toNat] := if_pos (Nat.le_of_lt_succ small)
    rw [encoded]
    exact ⟨self, by simp [pushAll, pushed], here⟩

theorem pushAll_text {text : List Char} (printable : ∀ c ∈ text, IsPrintable c) (here : self.state = .ground) :
    ∃ after, self.pushAll (bytes text) = some (text.map .char, after) ∧ after.state = .ground := by
  induction text generalizing self with
  | nil => exact ⟨self, rfl, here⟩
  | cons c text ih =>
    obtain ⟨middle, first, between⟩ := pushAll_char (printable c mem_cons_self) here
    obtain ⟨after, rest, ground⟩ := ih (fun c listed => printable c (mem_cons_of_mem _ listed)) between
    refine ⟨after, ?_, ground⟩
    rw [Text.bytes_cons, pushAll_append, first]
    simp [rest]

/-- After any bytes the decoder has not failed and little is pending, a control key is seen unless a
control sequence is open, and between sequences text comes out as it went in. -/
theorem keyDecoder_recovers (history : List UInt8) : ∃ keys decoder, new.pushAll history = some (keys, decoder) ∧
    decoder.pending.length ≤ maxParameterBytes ∧
    (∀ byte key, IsControl byte → asciiKey byte = some key →
      ((∃ after, decoder.push byte = some (some key, after) ∧ after.state = .ground) ↔ decoder.state ≠ .controlSequence)) ∧
    (decoder.state = .ground → ∀ text, (∀ c ∈ text, IsPrintable c) →
      ∃ after, decoder.pushAll (bytes text) = some (text.map .char, after) ∧ after.state = .ground) := by
  obtain ⟨keys, decoder, ran, invariant⟩ := pushAll_invariant invariant_new history
  refine ⟨keys, decoder, ran, invariant.short, ?_, ?_⟩
  · intro byte key control means
    exact push_control control means
  · intro here text printable
    exact pushAll_text printable here

/-- An interrupt that follows a cut control sequence is not seen. -/
theorem interrupt_lost : IsControl 0x03 ∧ asciiKey 0x03 = some .cancel ∧
    ((new.pushAll [0x1b, 0x5b]).bind fun (_, decoder) => decoder.push 0x03) = some (none, new) :=
  ⟨by decide, rfl, rfl⟩

end KeyDecoder

end Opaal.Cli
