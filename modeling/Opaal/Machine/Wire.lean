import Mathlib.Algebra.Group.Nat.Defs
import Opaal.Machine.Stateful

/-!
# Reading from bytes with a budget

A decoder walks over bytes it did not choose.  Every slice is checked against the end, and
before a collection is made its size is taken from a budget of items.  `Reads` says what a
reader keeps whatever the bytes are: it stays inside, never panics, and has room for no more
items than it paid for, up to a cost its caller has paid.
-/

namespace Opaal.Machine.Wire

open List

/-- The state of a reader.  `reserved` counts the items of all collections made so far;
`context` is what else the reader carries along. -/
structure Decoder (ω : Type) where
  bytes : List UInt8
  offset : Nat
  itemsRemaining : Nat
  reserved : Nat
  context : ω

/-- Why a reader stops: an error it reports, or a panic. -/
inductive Stop (ε : Type) where
  | failed (error : ε)
  | panicked

abbrev Reader (ω ε α : Type) := EStateM (Stop ε) (Decoder ω) α

variable {ω ε α β : Type}

/-! ## Readers -/

def fail (error : ε) : Reader ω ε α := throw (.failed error)

/-- What a constructor made, or its error in the reader's terms. -/
def checked {δ : Type} (translate : δ → ε) : Except δ α → Reader ω ε α
  | .ok value => pure value
  | .error error => fail (translate error)

/-- The bytes between two offsets; a slice that reaches outside panics. -/
def slice (bytes : List UInt8) (start stop : Nat) : Reader ω ε (List UInt8) :=
  if start ≤ stop ∧ stop ≤ bytes.length then pure ((bytes.drop start).take (stop - start)) else throw .panicked

def take (truncated : ε) (count : Nat) : Reader ω ε (List UInt8) := do
  let decoder ← get
  if decoder.offset + count ≤ decoder.bytes.length then
    let value ← slice decoder.bytes decoder.offset (decoder.offset + count)
    set { decoder with offset := decoder.offset + count }
    return value
  else fail truncated

/-- A slice as an array of that length, which it has to have. -/
def exactly (count : Nat) (bytes : List UInt8) : Reader ω ε (List UInt8) :=
  if bytes.length = count then pure bytes else throw .panicked

/-- What is left to read; it panics when the offset is past the end. -/
def remaining : Reader ω ε Nat := do
  let decoder ← get
  if decoder.offset ≤ decoder.bytes.length then return decoder.bytes.length - decoder.offset else throw .panicked

def fromLittleEndian (bytes : List UInt8) : Nat := bytes.foldr (fun byte value => byte.toNat + 256 * value) 0

/-- An unsigned number of so many bytes. -/
def unsigned (truncated : ε) (count : Nat) : Reader ω ε Nat := do
  let bytes ← take truncated count
  let bytes ← exactly count bytes
  return fromLittleEndian bytes

def chargeItems (exhausted : ε) (count : Nat) : Reader ω ε Unit := do
  let decoder ← get
  if count ≤ decoder.itemsRemaining then set { decoder with itemsRemaining := decoder.itemsRemaining - count }
  else fail exhausted

/-- A collection that will hold so many items. -/
def reserve (count : Nat) : Reader ω ε Unit := modify fun decoder => { decoder with reserved := decoder.reserved + count }

/-- The items of a collection one after the other. -/
def repeatRead (item : Reader ω ε α) : Nat → Reader ω ε (List α)
  | 0 => pure []
  | count + 1 => do
    let first ← item
    let rest ← repeatRead item count
    return first :: rest

/-! ## What readers keep -/

/-- From one state to a later one: the same bytes, still inside them, and no more items than
were paid for. -/
structure Leads (cost : Nat) (before after : Decoder ω) : Prop where
  bytes : after.bytes = before.bytes
  inside : after.offset ≤ after.bytes.length
  paid : after.reserved + after.itemsRemaining ≤ before.reserved + before.itemsRemaining + cost

def Reads (cost : Nat) (program : Reader ω ε α) (post : α → Prop) : Prop :=
  ∀ before, before.offset ≤ before.bytes.length →
    match program before with
    | .ok value after => Leads cost before after ∧ post value
    | .error stop after => Leads cost before after ∧ stop ≠ .panicked

section Rules

variable {first second cost : Nat} {program : Reader ω ε α} {rest : α → Reader ω ε β} {post : β → Prop} {middle : α → Prop}

theorem Leads.refl {before : Decoder ω} (inside : before.offset ≤ before.bytes.length) : Leads 0 before before :=
  ⟨rfl, inside, Nat.le_refl _⟩

theorem Leads.trans {before between after : Decoder ω} (one : Leads first before between)
    (two : Leads second between after) : Leads (first + second) before after where
  bytes := two.bytes.trans one.bytes
  inside := two.inside
  paid := by
    have paid := one.paid
    have more := two.paid
    omega

theorem Leads.mono {before after : Decoder ω} (leads : Leads first before after) (more : first ≤ second) :
    Leads second before after := ⟨leads.bytes, leads.inside, by have paid := leads.paid; omega⟩

theorem Reads.pure {post : α → Prop} {value : α} (holds : post value) : Reads 0 (pure value : Reader ω ε α) post :=
  fun _ inside => ⟨.refl inside, holds⟩

theorem Reads.fail {post : α → Prop} {error : ε} : Reads 0 (fail error : Reader ω ε α) post :=
  fun _ inside => ⟨.refl inside, by simp⟩

theorem Reads.mono {weak : α → Prop} (reads : Reads first program middle) (more : first ≤ second)
    (weaker : ∀ value, middle value → weak value) : Reads second program weak := by
  intro before inside
  have ran := reads before inside
  cases result : program before with
  | ok value =>
    rw [result] at ran
    exact ⟨ran.1.mono more, weaker value ran.2⟩
  | error =>
    rw [result] at ran
    exact ⟨ran.1.mono more, ran.2⟩

theorem Reads.weaken {weak : α → Prop} (reads : Reads first program middle) (weaker : ∀ value, middle value → weak value) :
    Reads first program weak := reads.mono (Nat.le_refl _) weaker

theorem Reads.bind (begins : Reads first program middle) (goes : ∀ value, middle value → Reads second (rest value) post) :
    Reads (first + second) (program >>= rest) post := by
  intro before inside
  have ran := begins before inside
  cases result : program before with
  | ok value between =>
    rw [result] at ran
    rw [bind_of_ok result]
    have later := goes value ran.2 between ran.1.inside
    cases next : rest value between with
    | ok | error =>
      rw [next] at later
      exact ⟨ran.1.trans later.1, later.2⟩
  | error stop after =>
    rw [result] at ran
    rw [bind_of_error result]
    exact ⟨ran.1.mono (by omega), ran.2⟩

/-- The form of the rule for readers that cost nothing. -/
theorem Reads.then (begins : Reads 0 program middle) (goes : ∀ value, middle value → Reads cost (rest value) post) :
    Reads cost (program >>= rest) post := by
  have both := begins.bind goes
  rwa [Nat.zero_add] at both

theorem Reads.checked {δ : Type} {translate : δ → ε} {result : Except δ α} {post : α → Prop}
    (holds : ∀ value, result = .ok value → post value) : Reads 0 (checked translate result : Reader ω ε α) post := by
  cases result with
  | ok value => exact .pure (holds value rfl)
  | error => exact .fail

theorem reads_take (truncated : ε) (count : Nat) :
    Reads 0 (take truncated count : Reader ω ε (List UInt8)) fun value => value.length = count := by
  intro before inside
  unfold take
  rw [get_bind]
  simp only
  by_cases enough : before.offset + count ≤ before.bytes.length
  · have ran : (slice before.bytes before.offset (before.offset + count) : Reader ω ε (List UInt8)) before =
        .ok ((before.bytes.drop before.offset).take count) before := by
      unfold slice
      rw [if_pos ⟨by omega, enough⟩, Nat.add_sub_cancel_left]
      rfl
    rw [if_pos enough, bind_of_ok ran]
    refine ⟨⟨rfl, enough, Nat.le_refl _⟩, ?_⟩
    rw [length_take, length_drop]
    omega
  · rw [if_neg enough]
    exact ⟨.refl inside, by simp⟩

theorem reads_remaining : Reads 0 (remaining : Reader ω ε Nat) fun _ => True := by
  intro before inside
  unfold remaining
  rw [get_bind, if_pos inside]
  exact ⟨.refl inside, trivial⟩

theorem reads_exactly {count : Nat} {bytes : List UInt8} (length : bytes.length = count) :
    Reads 0 (exactly count bytes : Reader ω ε (List UInt8)) fun value => value = bytes := by
  unfold exactly
  rw [if_pos length]
  exact .pure rfl

theorem fromLittleEndian_lt (bytes : List UInt8) : fromLittleEndian bytes < 256 ^ bytes.length := by
  unfold fromLittleEndian
  induction bytes with
  | nil => simp
  | cons byte bytes ih =>
    have small := byte.toNat_lt
    rw [foldr_cons, length_cons, Nat.pow_succ]
    omega

theorem reads_unsigned (truncated : ε) (count : Nat) :
    Reads 0 (unsigned truncated count : Reader ω ε Nat) fun value => value < 256 ^ count := by
  refine (reads_take truncated count).then fun bytes length => (reads_exactly length).then fun _ same => .pure ?_
  rw [same, ← length]
  exact fromLittleEndian_lt bytes

/-- What was charged may be reserved afterwards. -/
theorem Reads.charge {count : Nat} {exhausted : ε} {rest : Unit → Reader ω ε β} (goes : Reads (cost + count) (rest ()) post) :
    Reads cost (chargeItems exhausted count >>= rest) post := by
  intro before inside
  by_cases enough : count ≤ before.itemsRemaining
  · have ran : (chargeItems exhausted count : Reader ω ε Unit) before =
        .ok () { before with itemsRemaining := before.itemsRemaining - count } := by
      unfold chargeItems
      rw [get_bind, if_pos enough]
      rfl
    rw [bind_of_ok ran]
    have later := goes { before with itemsRemaining := before.itemsRemaining - count } inside
    have pays : ∀ after : Decoder ω, Leads (cost + count) { before with itemsRemaining := before.itemsRemaining - count } after →
        Leads cost before after := fun after leads =>
      ⟨leads.bytes, leads.inside, by have paid := leads.paid; simp only at paid; omega⟩
    split at later
    all_goals exact ⟨pays _ later.1, later.2⟩
  · have ran : (chargeItems exhausted count : Reader ω ε Unit) before = .error (.failed exhausted) before := by
      unfold chargeItems
      rw [get_bind, if_neg enough]
      rfl
    rw [bind_of_error ran]
    exact ⟨(Leads.refl inside).mono (Nat.zero_le _), by simp⟩

theorem reads_reserve (count : Nat) : Reads count (reserve count : Reader ω ε Unit) fun _ => True :=
  fun before inside => ⟨⟨rfl, inside, by show before.reserved + count + before.itemsRemaining ≤ _; omega⟩, trivial⟩

theorem Reads.repeat (item : Reads cost program middle) (count : Nat) :
    Reads (count * cost) (repeatRead program count) fun values => values.length = count ∧ ∀ value ∈ values, middle value := by
  induction count with
  | zero =>
    rw [Nat.zero_mul]
    exact .pure ⟨rfl, by simp⟩
  | succ _ ih =>
    rw [Nat.succ_mul, Nat.add_comm]
    refine item.bind fun first held => ?_
    refine (ih.bind fun rest both => Reads.pure ?_).mono (Nat.le_refl _) fun _ holds => holds
    rw [length_cons]
    exact ⟨by rw [both.1], forall_mem_cons.mpr ⟨held, both.2⟩⟩

end Rules

/-! ## Where readers end -/

/-- Every successful run leaves such a state. -/
def Concludes (program : Reader ω ε α) (post : Decoder ω → Prop) : Prop :=
  ∀ before value after, program before = .ok value after → post after

section Ends

variable {program : Reader ω ε α} {rest : α → Reader ω ε β} {post : Decoder ω → Prop}

/-- Only the last step decides where a run ends. -/
theorem Concludes.bind (goes : ∀ value, Concludes (rest value) post) : Concludes (program >>= rest) post := by
  intro before value after ran
  obtain ⟨middle, between, _, last⟩ := bind_returned ran
  exact goes middle between value after last

/-- A reader that goes on only when nothing is left ends behind the last byte. -/
theorem concludes_remaining {refused : ε} {value : α} :
    Concludes (do
      let rest ← (remaining : Reader ω ε Nat)
      if rest ≠ 0 then fail refused else pure value) fun after => after.offset = after.bytes.length := by
  intro before out after ran
  by_cases inside : before.offset ≤ before.bytes.length
  · have left : (remaining : Reader ω ε Nat) before = .ok (before.bytes.length - before.offset) before := by
      unfold remaining
      rw [get_bind, if_pos inside]
      rfl
    rw [bind_of_ok left] at ran
    by_cases none : before.bytes.length - before.offset = 0
    · rw [if_neg (not_not_intro none)] at ran
      cases ran
      omega
    · rw [if_pos none] at ran
      contradiction
  · have stops : (remaining : Reader ω ε Nat) before = .error .panicked before := by
      unfold remaining
      rw [get_bind, if_neg inside]
      rfl
    rw [bind_of_error stops] at ran
    contradiction

end Ends

end Opaal.Machine.Wire
