import Opaal.Json.Reader
import Opaal.Runtime.JsonDecoder
import Opaal.Text.Ascii

/-!
# The decoder without its charges

Erasing the polls and the charges leaves a reader of text: on the bytes of a text the
decoder does what the reader does on the text, unless it is interrupted, and it is never
interrupted by a budget without limits and a token that does not trip.
-/

namespace Opaal.Runtime

open Opaal.Machine List
open Opaal.Text (bytes)
open Opaal.Json (Reader)
open Json

/-- No charge is refused and no poll trips. -/
structure Uninterrupted {β : Type} (input : DecoderInput β) (decoder : JsonDecoder) : Prop where
  cancel : ∀ polls, input.cancel.isCancelled polls = false
  budget : decoder.budget.Unlimited

def Interruption (abort : Abort) : Prop := abort = .cancelled ∨ abort = .budgetExceeded

def Rejection (abort : Abort) : Prop := ∃ code message, abort = .invalid code message

/-- What a step leaves as it was: the limits, the open calls, and where the input ends. -/
structure Keeps (before after : JsonDecoder) : Prop where
  balanced : before.budget.Balanced after.budget
  position : after.cursor + after.rest.length = before.cursor + before.rest.length

theorem Keeps.uninterrupted {β : Type} {input : DecoderInput β} {before after : JsonDecoder} (keeps : Keeps before after)
    (free : Uninterrupted input before) : Uninterrupted input after :=
  ⟨free.cancel, keeps.balanced.unlimited free.budget⟩

/-- The program does what `answer` says, unless it is interrupted. -/
def Follows {β α : Type} (input : DecoderInput β) (decoder : JsonDecoder) (program : DecodeM β α)
    (answer : Option (α × List UInt8)) : Prop :=
  match program input decoder with
  | .ok value after => Keeps decoder after ∧ answer = some (value, after.rest)
  | .error abort after => Keeps decoder after ∧
      ((Interruption abort ∧ ¬Uninterrupted input decoder) ∨ (answer = none ∧ Rejection abort))

/-- An answer about text as one about its bytes. -/
def encoded {α : Type} (answer : Option (α × List Char)) : Option (α × List UInt8) :=
  answer.map fun (value, left) => (value, bytes left)

section Rules

variable {β α γ : Type} {input : DecoderInput β} {decoder : JsonDecoder} {answer : Option (γ × List UInt8)}

theorem Keeps.refl (decoder : JsonDecoder) : Keeps decoder decoder := ⟨.refl _, rfl⟩

theorem Keeps.trans {first second third : JsonDecoder} (one : Keeps first second) (two : Keeps second third) :
    Keeps first third :=
  ⟨one.balanced.trans two.balanced, two.position.trans one.position⟩

variable {program : DecodeM β α} {value : α} {left : List UInt8} {next : α → DecodeM β γ}

theorem Follows.of_ok {after : JsonDecoder} (result : program input decoder = .ok value after)
    (keeps : Keeps decoder after) (rest : after.rest = left) : Follows input decoder program (some (value, left)) := by
  unfold Follows
  rw [result]
  exact ⟨keeps, by rw [rest]⟩

theorem Follows.returns (value : γ) : Follows input decoder (pure value) (some (value, decoder.rest)) :=
  .of_ok rfl (.refl decoder) rfl

/-- What follows a step that was not interrupted may be interrupted itself. -/
theorem Follows.after {program last : DecodeM β γ} {middle : JsonDecoder} (keeps : Keeps decoder middle)
    (onward : Follows input middle last answer) (same : program input decoder = last input middle) :
    Follows input decoder program answer := by
  unfold Follows at onward ⊢
  rw [same]
  cases result : last input middle with
  | ok =>
    rw [result] at onward
    exact ⟨keeps.trans onward.1, onward.2⟩
  | error =>
    rw [result] at onward
    refine ⟨keeps.trans onward.1, ?_⟩
    rcases onward.2 with ⟨interruption, limited⟩ | refused
    · exact .inl ⟨interruption, fun free => limited (keeps.uninterrupted free)⟩
    · exact .inr refused

/-- Sequencing: the rest starts where the first part stopped. -/
theorem Follows.bind {first : Option (α × List UInt8)} {onward : α → List UInt8 → Option (γ × List UInt8)}
    (starts : Follows input decoder program first)
    (second : ∀ value after, first = some (value, after.rest) → Follows input after (next value) (onward value after.rest)) :
    Follows input decoder (program >>= next) (first.bind fun (value, left) => onward value left) := by
  cases result : program input decoder with
  | error =>
    unfold Follows at starts ⊢
    rw [result] at starts
    rw [error_bind result]
    refine ⟨starts.1, ?_⟩
    rcases starts.2 with interrupted | ⟨refused, rejection⟩
    · exact .inl interrupted
    · right
      exact ⟨by rw [refused]; rfl, rejection⟩
  | ok value after =>
    unfold Follows at starts
    rw [result] at starts
    have ended := second value after starts.2
    rw [starts.2]
    exact ended.after starts.1 (ok_bind result)

/-- A first part whose answer is known. -/
theorem Follows.keeping (first : Follows input decoder program (some (value, left)))
    (second : ∀ after, Keeps decoder after → after.rest = left → Follows input after (next value) answer) :
    Follows input decoder (program >>= next) answer := by
  cases result : program input decoder with
  | error abort after =>
    unfold Follows at first ⊢
    rw [result] at first
    rw [error_bind result]
    refine ⟨first.1, ?_⟩
    rcases first.2 with interrupted | ⟨refused, _⟩
    · exact .inl interrupted
    · contradiction
  | ok _ after =>
    unfold Follows at first
    rw [result] at first
    obtain ⟨keeps, same⟩ := first
    cases same
    exact (second after keeps rfl).after keeps (ok_bind result)

theorem Follows.step (first : Follows input decoder program (some (value, left)))
    (second : ∀ after, after.rest = left → Follows input after (next value) answer) :
    Follows input decoder (program >>= next) answer :=
  first.keeping fun after _ rest => second after rest

/-- Sequencing over text. -/
theorem Follows.chain {first : Option (α × List Char)} {onward : α × List Char → Option (γ × List Char)}
    (starts : Follows input decoder program (encoded first))
    (second : ∀ value left after, first = some (value, left) → after.rest = bytes left → Follows input after (next value) (encoded (onward (value, left)))) :
    Follows input decoder (program >>= next) (encoded (first.bind onward)) := by
  cases first with
  | none =>
    have stops : Follows input decoder (program >>= next)
        ((none : Option (α × List UInt8)).bind fun (_, _) => (none : Option (γ × List UInt8))) := by
      refine @Follows.bind _ _ _ _ _ _ _ _ (fun _ _ => none) starts ?_
      intro _ _ impossible
      contradiction
    exact stops
  | some found => exact starts.step fun after rest => second found.1 found.2 after rfl rest

theorem Follows.rejected {code message : String} :
    Follows input decoder (throw (.invalid code message) : DecodeM β γ) none :=
  ⟨.refl decoder, .inr ⟨rfl, code, message, rfl⟩⟩

theorem Follows.refuses : Follows input decoder (JsonDecoder.malformed : DecodeM β γ) none :=
  ⟨.refl decoder, .inr ⟨rfl, _, _, rfl⟩⟩

theorem Follows.gets {next : JsonDecoder → DecodeM β γ} (onward : Follows input decoder (next decoder) answer) :
    Follows input decoder (get >>= next) answer :=
  onward

theorem Follows.asks {next : DecoderInput β → DecodeM β γ} (onward : Follows input decoder (next input) answer) :
    Follows input decoder (read >>= next) answer :=
  onward

theorem Follows.peeks {next : Option UInt8 → DecodeM β γ}
    (onward : Follows input decoder (next decoder.rest.head?) answer) :
    Follows input decoder (JsonDecoder.peek >>= next) answer :=
  onward

/-- A change to the counters of the scanner. -/
theorem Follows.modifies {change : JsonDecoder → JsonDecoder} {next : Unit → DecodeM β γ}
    (keeps : Keeps decoder (change decoder)) (onward : Follows input (change decoder) (next ()) answer) :
    Follows input decoder (modify change >>= next) answer :=
  onward.after keeps rfl

end Rules

open Follows (gets modifies of_ok peeks refuses)

/-! ## Charges -/

namespace JsonDecoder

variable {β γ : Type} {input : DecoderInput β} {decoder : JsonDecoder}

theorem checkCancel_follows : Follows input decoder checkCancel (some ((), decoder.rest)) := by
  cases tripped : input.cancel.isCancelled decoder.polls with
  | false =>
    have result : checkCancel input decoder = .ok () { decoder with polls := decoder.polls + 1 } := by
      unfold checkCancel
      rw [tripped]
      rfl
    exact of_ok result ⟨.refl _, rfl⟩ rfl
  | true =>
    unfold Follows checkCancel
    simp only [tripped, ↓reduceIte]
    refine ⟨⟨.refl _, rfl⟩, .inl ⟨.inl rfl, ?_⟩⟩
    intro free
    rw [free.cancel] at tripped
    contradiction

theorem spend_follows {charge : ResourceBudget → Option ResourceBudget} (gentle : ResourceBudget.Gentle charge) :
    Follows input decoder (spend charge) (some ((), decoder.rest)) := by
  cases charged : charge decoder.budget with
  | some budget =>
    have result : (spend charge : DecodeM β Unit) input decoder = .ok () { decoder with budget } := by
      unfold spend
      rw [charged]
    exact of_ok result ⟨gentle.balanced _ _ charged, rfl⟩ rfl
  | none =>
    unfold Follows spend
    rw [charged]
    refine ⟨.refl decoder, .inl ⟨.inr rfl, ?_⟩⟩
    intro free
    exact gentle.afforded _ free.budget charged

theorem visit_follows : Follows input decoder visit (some ((), decoder.rest)) := by
  apply checkCancel_follows.step
  intro after rest
  rw [← rest]
  exact spend_follows ResourceBudget.gentle_charge

theorem retainCollectionBytes_follows (amount : Nat) :
    Follows input decoder (retainCollectionBytes amount) (some ((), decoder.rest)) :=
  spend_follows (ResourceBudget.gentle_bytes amount)

theorem retainItem_follows (size : Nat) : Follows input decoder (retainItem size) (some ((), decoder.rest)) := by
  apply visit_follows.step
  intro visited rest
  rw [← rest]
  apply (retainCollectionBytes_follows size).step
  intro retained rest
  rw [← rest]
  exact spend_follows (ResourceBudget.gentle_items 1)

theorem forM_visit_follows {δ : Type} (items : List δ) :
    Follows input decoder (items.forM fun _ => visit) (some ((), decoder.rest)) := by
  induction items generalizing decoder with
  | nil => exact .returns ()
  | cons _ _ ih =>
    apply visit_follows.step
    intro visited rest
    rw [← rest]
    exact ih

/-! ## Scanning -/

theorem refillScan_follows : Follows input decoder refillScan (some ((), decoder.rest)) := by
  apply gets
  split
  · apply visit_follows.step
    intro visited rest
    rw [← rest]
    exact modifies ⟨.refl _, rfl⟩ (.returns ())
  · exact .returns ()

/-- The first of the remaining bytes. -/
def nextByte : List UInt8 → Option (UInt8 × List UInt8)
  | [] => none
  | byte :: rest => some (byte, rest)

theorem bump_follows : Follows input decoder bump (nextByte decoder.rest) := by
  apply refillScan_follows.step
  intro refilled same
  apply gets
  rw [← same]
  cases rest : refilled.rest with
  | nil => exact refuses
  | cons byte more =>
    have position : refilled.cursor + 1 + more.length = refilled.cursor + refilled.rest.length := by
      rw [rest, length_cons]
      omega
    refine modifies ⟨.refl _, position⟩ ?_
    exact .returns byte

variable {byte : UInt8} {kind : UInt8 → Bool} {c : Char}

/-- A byte that is there. -/
theorem bump_cons {more : List UInt8} (rest : decoder.rest = byte :: more) :
    Follows input decoder bump (some (byte, more)) := by
  have follows := @bump_follows β input decoder
  rw [rest] at follows
  exact follows

theorem expect_follows (expected : Char) : Follows input decoder (expect expected)
    (match decoder.rest with
      | byte :: more => if byte = expected.toUInt8 then some ((), more) else none
      | [] => none) := by
  apply peeks
  cases rest : decoder.rest with
  | nil =>
    exact refuses
  | cons byte =>
    by_cases same : byte = expected.toUInt8
    · simp only [List.head?_cons, same, ne_eq, not_true_eq_false, ↓reduceIte]
      apply (bump_cons rest).step
      intro after left
      rw [← left]
      exact .returns ()
    · rw [if_pos (by simpa using same)]
      simp only [if_neg same]
      exact refuses

theorem skipTurn_again {more : List UInt8} (rest : decoder.rest = byte :: more) (found : kind byte = true) : Follows input decoder (skipTurn kind ()) (some (.again (), more)) := by
  apply peeks
  rw [rest, if_pos (by simpa using found)]
  apply (bump_cons rest).step
  intro after left
  rw [← left]
  exact .returns _

theorem skipTurn_done (ends : decoder.rest.head?.any kind = false) :
    Follows input decoder (skipTurn kind ()) (some (.done (), decoder.rest)) := by
  apply peeks
  rw [if_neg (by simp [ends])]
  exact .returns _

/-- A loop over bytes of a kind drops them. -/
theorem skipTurns_follows (kind : UInt8 → Bool) (bound : Nat) (enough : decoder.rest.length < bound) :
    Follows input decoder (repeatFrom .unbounded (skipTurn kind) bound ()) (some ((), decoder.rest.dropWhile kind)) := by
  induction bound generalizing decoder with
  | zero => omega
  | succ _ ih =>
    by_cases ends : decoder.rest.head?.any kind = false
    · apply (skipTurn_done ends).step
      intro after same
      have stays : decoder.rest.dropWhile kind = decoder.rest := by
        cases rest : decoder.rest with
        | nil => rfl
        | cons =>
          rw [rest] at ends
          exact dropWhile_cons_of_neg (by simpa using ends)
      rw [stays, ← same]
      exact .returns ()
    · cases rest : decoder.rest with
      | nil =>
        rw [rest] at ends
        exact absurd rfl ends
      | cons byte =>
        rw [rest] at ends enough
        have found : kind byte = true := by simpa using ends
        apply (skipTurn_again rest found).step
        intro after same
        rw [dropWhile_cons_of_pos found, ← same]
        apply ih
        rw [same]
        exact Nat.lt_of_succ_lt_succ enough

theorem skipWhile_follows (kind : UInt8 → Bool) :
    Follows input decoder (skipWhile kind) (some ((), decoder.rest.dropWhile kind)) := by
  apply gets
  exact skipTurns_follows kind _ (Nat.lt_succ_self _)

/-! ## Over text -/

variable {text : List Char}

/-- A class of bytes that says of ASCII scalars what a class of characters says, and leaves
out all other bytes. -/
structure Classifies (kind : UInt8 → Bool) (class' : Char → Bool) : Prop where
  ascii : ∀ c, c.toNat < 128 → kind c.toUInt8 = class' c
  wide : ∀ byte : UInt8, 128 ≤ byte.toNat → kind byte = false
  wideClass : ∀ c, 128 ≤ c.toNat → class' c = false

theorem dropWhile_bytes {class' : Char → Bool} (agrees : Classifies kind class') (text : List Char) :
    (bytes text).dropWhile kind = bytes (text.dropWhile class') := by
  induction text with
  | nil => rfl
  | cons c rest ih =>
    rcases Nat.lt_or_ge c.toNat 128 with small | wide
    · rw [Text.bytes_ascii small]
      cases member : class' c with
      | true => rw [dropWhile_cons_of_pos (by rw [agrees.ascii c small, member]),
          dropWhile_cons_of_pos member, ih]
      | false => rw [dropWhile_cons_of_neg (by simp [agrees.ascii c small, member]),
          dropWhile_cons_of_neg (by simp [member]), Text.bytes_ascii small]
    · obtain ⟨lead, more, encoding, range⟩ := Text.encode_wide wide
      have outside : kind lead = false := agrees.wide lead (by omega)
      rw [dropWhile_cons_of_neg (by simp [agrees.wideClass c wide]), Text.bytes_cons, encoding, cons_append,
        dropWhile_cons_of_neg (by simp [outside])]

theorem isWhitespace_classifies : Classifies isWhitespace isBlank where
  ascii c small := by
    have all := @Text.forall_ascii (fun c => isWhitespace c.toUInt8 == isBlank c) (by decide +kernel) c small
    exact beq_iff_eq.mp all
  wide byte large := by
    have all := @Text.forall_wide_byte (fun byte => !isWhitespace byte) (by decide +kernel) byte large
    simpa using all
  wideClass c large := by
    unfold isBlank
    simp only [Bool.or_eq_false_iff, beq_eq_false_iff_ne, ne_eq]
    refine ⟨⟨⟨?_, ?_⟩, ?_⟩, ?_⟩ <;> (rintro rfl; revert large; decide)

theorem whitespace_follows (rest : decoder.rest = bytes text) :
    Follows input decoder whitespace (encoded (some ((), Json.skipBlank text))) := by
  have follows := @skipWhile_follows β input decoder isWhitespace
  rw [rest, dropWhile_bytes isWhitespace_classifies] at follows
  exact follows

theorem bump_ascii {more : List Char} (ascii : c.toNat < 128) (rest : decoder.rest = bytes (c :: more)) :
    Follows input decoder bump (some (c.toUInt8, bytes more)) := by
  rw [Text.bytes_ascii ascii] at rest
  exact bump_cons rest

theorem bump_nil (rest : decoder.rest = bytes []) : Follows input decoder bump none := by
  have follows := @bump_follows β input decoder
  rw [rest] at follows
  exact follows

/-- A first part that refuses. -/
theorem follows_stops {α : Type} {program : DecodeM β α} {next : α → DecodeM β γ} (first : Follows input decoder program none) :
    Follows input decoder (program >>= next) none := by
  have stops : Follows input decoder (program >>= next)
      ((none : Option (α × List UInt8)).bind fun (_, _) => (none : Option (γ × List UInt8))) := by
    refine @Follows.bind _ _ _ _ _ _ _ _ (fun _ _ => none) first ?_
    intro _ _ impossible
    contradiction
  exact stops

theorem returns_text {value : γ} (rest : decoder.rest = bytes text) :
    Follows input decoder (pure value) (encoded (some (value, text))) := by
  have returns := @Follows.returns β γ input decoder value
  rw [rest] at returns
  exact returns

/-- One given character. -/
def readChar (expected : Char) : Reader Unit
  | c :: rest => if c = expected then some ((), rest) else none
  | [] => none

theorem expect_text {expected : Char} (ascii : expected.toNat < 128) (rest : decoder.rest = bytes text) :
    Follows input decoder (expect expected) (encoded (readChar expected text)) := by
  have follows := @expect_follows β input decoder expected
  rw [rest] at follows
  cases text with
  | nil => exact follows
  | cons c more =>
    show Follows input decoder (expect expected) (encoded (if c = expected then some ((), more) else none))
    rcases Nat.lt_or_ge c.toNat 128 with small | wide
    · rw [Text.bytes_ascii small] at follows
      simp only at follows
      by_cases same : c = expected
      · rw [if_pos (by rw [same])] at follows
        rw [if_pos same]
        exact follows
      · rw [if_neg (fun bytes => same (Text.toUInt8_inj small ascii bytes))] at follows
        rw [if_neg same]
        exact follows
    · obtain ⟨lead, others, encoding, range⟩ := Text.encode_wide wide
      rw [Text.bytes_cons, encoding, cons_append] at follows
      have number := Text.toNat_toUInt8 ascii
      have unequal : ¬lead = expected.toUInt8 := by
        intro same
        rw [← same] at number
        omega
      have different : ¬c = expected := by
        rintro rfl
        omega
      simp only [if_neg unequal] at follows
      rw [if_neg different]
      exact follows

/-- Digits as they come. -/
def readHexFrom : Nat → Nat → Reader Nat
  | 0, number, text => some (number, text)
  | _ + 1, _, [] => none
  | count + 1, number, c :: rest => (hexDigit c).bind fun digit => readHexFrom count (number * 16 + digit) rest

theorem readHexFrom_four (text : List Char) : readHexFrom 4 0 text = readHex4 text := by
  match text with
  | [] => rfl
  | [a] => cases digit : hexDigit a <;> simp [readHexFrom, readHex4, digit]
  | [a, b] =>
    cases first : hexDigit a <;> cases second : hexDigit b <;>
      simp [readHexFrom, readHex4, first, second]
  | [a, b, c] =>
    cases first : hexDigit a <;> cases second : hexDigit b <;> cases third : hexDigit c <;>
      simp [readHexFrom, readHex4, first, second, third]
  | a :: b :: c :: d :: rest =>
    cases first : hexDigit a <;> cases second : hexDigit b <;> cases third : hexDigit c <;>
      cases fourth : hexDigit d <;>
      simp [readHexFrom, readHex4, Json.hexValue, first, second, third, fourth]

theorem hexDigitOf_ascii (ascii : c.toNat < 128) : hexDigitOf c.toUInt8 = hexDigit c := by
  have all := @Text.forall_ascii (fun c => hexDigitOf c.toUInt8 == hexDigit c) (by decide +kernel) c ascii
  exact beq_iff_eq.mp all

theorem hexDigitOf_wide (wide : 128 ≤ byte.toNat) : hexDigitOf byte = none := by
  have all := @Text.forall_wide_byte (fun byte => hexDigitOf byte == none) (by decide +kernel) byte wide
  exact beq_iff_eq.mp all

theorem hexDigit_wide (wide : 128 ≤ c.toNat) : hexDigit c = none := by
  have above : ∀ d : Char, d.toNat < 128 → ¬c ≤ d := by
    intro d small below
    have order : c.toNat ≤ d.toNat := below
    omega
  unfold hexDigit
  rw [if_neg (fun both => above '9' (by decide) both.2), if_neg (fun both => above 'f' (by decide) both.2),
    if_neg (fun both => above 'F' (by decide) both.2)]

theorem hexFrom_follows (count number : Nat) (rest : decoder.rest = bytes text) :
    Follows input decoder (hexFrom count number) (encoded (readHexFrom count number text)) := by
  induction count generalizing number decoder text with
  | zero => exact returns_text rest
  | succ count ih =>
    cases text with
    | nil => exact follows_stops (bump_nil rest)
    | cons c more =>
      unfold readHexFrom
      rcases Nat.lt_or_ge c.toNat 128 with small | wide
      · apply (bump_ascii small rest).step
        intro after left
        rw [hexDigitOf_ascii small]
        cases hexDigit c with
        | none => exact refuses
        | some digit => exact ih (number * 16 + digit) left
      · obtain ⟨lead, others, encoding, range⟩ := Text.encode_wide wide
        rw [Text.bytes_cons, encoding, cons_append] at rest
        rw [hexDigit_wide wide]
        apply (bump_cons rest).step
        intro after left
        rw [hexDigitOf_wide (by omega)]
        exact refuses

theorem hex4_follows (rest : decoder.rest = bytes text) :
    Follows input decoder hex4 (encoded (readHex4 text)) := by
  rw [← readHexFrom_four]
  exact hexFrom_follows 4 0 rest

end JsonDecoder

end Opaal.Runtime
