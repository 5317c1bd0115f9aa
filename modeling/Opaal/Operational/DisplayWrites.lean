import Opaal.Machine.Metered
import Opaal.Operational.Display

/-!
# What the printer's writers write

The writers of the bounded printer against its meter: the output, and what is left of the cap and
of the budget.  Texts and byte strings are written the same in blocks as at once.
-/

namespace Opaal.Operational.Display

open Opaal.Machine List
open Opaal.Runtime
open Opaal.Text
open Prints (never nothing)

/-- So much more output, so many more steps and so many more bytes of a collection are allowed, nothing
is cancelled, and there is memory. -/
structure Affords (context : Surroundings) (display : Display) (amount : Nat) : Prop where
  quiet : ∀ time, context.poll time = none
  memory : ∀ time additional, context.reserve time additional = true
  room : display.output.length + amount ≤ context.cap
  steps : ∀ limit, display.budget.stepLimit = some limit → display.budget.usedSteps + amount ≤ limit
  bytes : ∀ limit, display.budget.collectionByteLimit = some limit → display.budget.collectionBytes + amount ≤ limit

variable {context : Surroundings} {amount passes : Nat} {charge : ResourceBudget → Option ResourceBudget}
  {encoded : List UInt8}

theorem Affords.mono {display : Display} {less : Nat} (affords : Affords context display amount) (le : less ≤ amount) : Affords context display less where
  quiet := affords.quiet
  memory := affords.memory
  room := Nat.le_trans (Nat.add_le_add_left le _) affords.room
  steps limit limited := Nat.le_trans (Nat.add_le_add_left le _) (affords.steps limit limited)
  bytes limit limited := Nat.le_trans (Nat.add_le_add_left le _) (affords.bytes limit limited)

/-- What is counted of the input is no part of what is paid for. -/
theorem Affords.consumed {display : Display} (affords : Affords context display amount) (length : Nat) :
    Affords context { display with inputBytes := display.inputBytes + length } amount :=
  ⟨affords.quiet, affords.memory, affords.room, affords.steps, affords.bytes⟩

def meter : Meter Surroundings Display UInt8 := ⟨Display.output, Affords⟩

variable {context : Surroundings} {display after : Display} {left : Nat}

/-! ## Charges -/

theorem poll_ok (ran : poll context display = .ok () after) :
    after = { display with clock := display.clock + 1 } := by
  unfold poll at ran
  cases answer : context.poll display.clock with
  | some reason =>
    rw [answer] at ran
    contradiction
  | none =>
    rw [answer] at ran
    cases ran
    rfl

theorem poll_pays (affords : Affords context display left) :
    ∃ after, poll context display = .ok () after ∧ Affords context after left := by
  refine ⟨{ display with clock := display.clock + 1 }, ?_, affords.quiet, affords.memory, affords.room, affords.steps,
    affords.bytes⟩
  unfold poll
  rw [affords.quiet display.clock]

theorem prints_poll : Prints meter poll True [] := by
  constructor
  · intro context display after ran
    rw [poll_ok ran]
    exact ⟨trivial, (append_nil _).symm⟩
  · intro _
    exact ⟨0, fun affords => poll_pays (by rwa [Nat.zero_add] at affords)⟩

theorem spend_ok (ran : spend charge context display = .ok () after) :
    ∃ budget, charge display.budget = some budget ∧ after = { display with budget } := by
  unfold spend at ran
  cases charged : charge display.budget with
  | none =>
    rw [charged] at ran
    contradiction
  | some budget =>
    rw [charged] at ran
    cases ran
    exact ⟨budget, rfl, rfl⟩

theorem spend_eq (budget : ResourceBudget) (charged : charge display.budget = some budget) : spend charge context display = .ok () { display with budget } := by
  unfold spend
  rw [charged]

/-- A step that is allowed is charged. -/
theorem charge_pays (affords : Affords context display (left + 1)) :
    ∃ after, spend ResourceBudget.charge context display = .ok () after ∧ Affords context after left ∧
      after.output = display.output := by
  have rest := affords.mono (Nat.le_succ left)
  cases limited : display.budget.stepLimit with
  | none =>
    refine ⟨_, spend_eq display.budget ?_, rest, rfl⟩
    simp [ResourceBudget.charge, limited]
  | some most =>
    have enough := affords.steps most limited
    refine ⟨_, spend_eq { display.budget with usedSteps := display.budget.usedSteps + 1 } ?_,
      ⟨rest.quiet, rest.memory, rest.room, ?_, rest.bytes⟩, rfl⟩
    · have below : ¬most ≤ display.budget.usedSteps := by omega
      simp [ResourceBudget.charge, limited, below]
    · intro limit same
      have same' : display.budget.stepLimit = some limit := same
      rw [limited] at same'
      cases same'
      show display.budget.usedSteps + 1 + left ≤ most
      omega

theorem prints_charge : Prints meter (spend ResourceBudget.charge) True [] := by
  constructor
  · intro context display after ran
    obtain ⟨_, _, rfl⟩ := spend_ok ran
    exact ⟨trivial, (append_nil _).symm⟩
  · intro _
    refine ⟨1, ?_⟩
    intro context display left affords
    rw [Nat.add_comm] at affords
    obtain ⟨after, ran, rest, _⟩ := charge_pays affords
    exact ⟨after, ran, rest⟩

theorem prints_step : Prints meter step True [] := (prints_poll.seq prints_charge).congr (by simp) rfl

theorem prints_refuse (error : ModuleError) (text : List UInt8) : Prints meter (refuse error) False text :=
  never fun _ _ _ ran => by contradiction

theorem prints_node (depth : Nat) : Prints meter (node depth) (depth ≤ maxDepth) [] := by
  unfold node
  split
  · next deep => exact (prints_step.seq (prints_refuse limit [])).congr (by simp only [and_false, false_iff]; omega) rfl
  · next shallow => exact (prints_step.seq nothing).congr (by simp only [and_self, true_iff]; omega) rfl

theorem prints_steps (count : Nat) : Prints meter (steps count) True [] := by
  induction count with
  | zero => exact nothing
  | succ _ ih => exact (prints_step.seq ih).congr (by simp) rfl

theorem step_pays (affords : Affords context display (left + 1)) :
    ∃ after, step context display = .ok () after ∧ Affords context after left := by
  obtain ⟨_, asked, affords⟩ := poll_pays affords
  obtain ⟨charged, spent, affords, _⟩ := charge_pays affords
  exact ⟨charged, (ok_bind asked).trans spent, affords⟩

/-- Several steps cost their number. -/
theorem steps_pays (count : Nat) (affords : Affords context display (count + left)) :
    ∃ after, steps count context display = .ok () after ∧ Affords context after left := by
  induction count generalizing display with
  | zero => exact ⟨display, rfl, affords.mono (Nat.le_add_left left 0)⟩
  | succ count ih =>
    obtain ⟨charged, first, affords⟩ := step_pays (affords.mono (by omega) : Affords _ _ (count + left + 1))
    obtain ⟨after, ran, affords⟩ := ih affords
    exact ⟨after, (ok_bind first).trans ran, affords⟩

theorem divCeil_add_le (consumed length : Nat) : divCeil (consumed + length) block - divCeil consumed block ≤ length := by
  unfold divCeil block
  omega

theorem prints_consume (length : Nat) : Prints meter (consume length) True [] := by
  constructor
  · intro context display after ran
    cases ran
    exact ⟨trivial, (append_nil _).symm⟩
  · intro _
    exact ⟨0, fun affords => ⟨_, rfl, (affords.mono (Nat.le_add_left _ _)).consumed length⟩⟩

theorem prints_input (length : Nat) : Prints meter (input length) True [] := by
  unfold input
  split
  · constructor
    · intro context display after ran
      have charges := prints_steps (divCeil (display.inputBytes + length) block - divCeil display.inputBytes block)
      exact ⟨trivial, ((prints_poll.seq (charges.seq (prints_consume length))).writes ran).2⟩
    · intro _
      refine ⟨length, ?_⟩
      intro context display left affords
      obtain ⟨_, asked, affords⟩ := poll_pays affords
      have blocks := divCeil_add_le display.inputBytes length
      obtain ⟨_, spent, affords⟩ := steps_pays _ (affords.mono (Nat.add_le_add_right blocks left))
      refine ⟨_, ?_, affords.consumed length⟩
      rw [ok_bind (rfl : current context display = .ok display display), ok_bind asked, ok_bind spent]
      rfl
  · exact nothing

/-! ## Output -/

theorem startBlock_ok (ran : startBlock context display = .ok () after) : after.output = display.output := by
  unfold startBlock at ran
  rw [ok_bind (rfl : current context display = .ok display display)] at ran
  split at ran
  · exact (prints_step.writes ran).2.trans (append_nil _)
  · cases ran
    rfl

theorem startBlock_pays (affords : Affords context display (left + 1)) :
    ∃ after, startBlock context display = .ok () after ∧ Affords context after left := by
  unfold startBlock
  rw [ok_bind (rfl : current context display = .ok display display)]
  split
  · exact step_pays affords
  · exact ⟨display, rfl, affords.mono (Nat.le_succ left)⟩

theorem reserve_ok {additional : Nat} (ran : reserve additional context display = .ok () after) :
    after = { display with clock := display.clock + 1 } := by
  unfold reserve at ran
  split at ran
  · cases ran
    rfl
  · contradiction

theorem grow_ok {capacity : Nat} (ran : grow capacity context display = .ok () after) :
    after.output = display.output := by
  unfold grow at ran
  rw [ok_bind (rfl : current context display = .ok display display)] at ran
  obtain ⟨_, _, spent, ran⟩ := bind_returns ran
  obtain ⟨_, _, found, ran⟩ := bind_returns ran
  obtain ⟨_, _, rfl⟩ := spend_ok spent
  cases reserve_ok found
  cases ran
  rfl

theorem makeRoom_ok {next : Nat} (ran : makeRoom next context display = .ok () after) :
    after.output = display.output := by
  unfold makeRoom at ran
  rw [ok_bind (rfl : surroundings context display = .ok context display),
    ok_bind (rfl : current context display = .ok display display)] at ran
  split at ran
  · contradiction
  split at ran
  · exact grow_ok ran
  · cases ran
    rfl

theorem collectionBytes_pays (affords : Affords context display (amount + left)) :
    ∃ after, spend (ResourceBudget.chargeCollectionBytes amount) context display = .ok () after ∧
      Affords context after left ∧ after.output = display.output := by
  have rest := affords.mono (Nat.le_add_left left amount)
  have allowed : ResourceBudget.exceeds (display.budget.collectionBytes + amount) display.budget.collectionByteLimit =
      false := by
    unfold ResourceBudget.exceeds
    cases limited : display.budget.collectionByteLimit with
    | none => rfl
    | some most =>
      have enough := affords.bytes most limited
      rw [Option.any_some, decide_eq_false_iff_not]
      omega
  refine ⟨_, spend_eq { display.budget with collectionBytes := display.budget.collectionBytes + amount } ?_,
    ⟨rest.quiet, rest.memory, rest.room, rest.steps, ?_⟩, rfl⟩
  · unfold ResourceBudget.chargeCollectionBytes
    rw [allowed]
    rfl
  · intro limit limited
    have enough := affords.bytes limit limited
    show display.budget.collectionBytes + amount + left ≤ limit
    omega

theorem reserve_pays (additional : Nat) (affords : Affords context display left) :
    ∃ after, reserve additional context display = .ok () after ∧ Affords context after left ∧
      after.output = display.output := by
  refine ⟨{ display with clock := display.clock + 1 }, ?_, ⟨affords.quiet, affords.memory, affords.room, affords.steps,
    affords.bytes⟩, rfl⟩
  unfold reserve
  rw [affords.memory display.clock additional]
  rfl

theorem grow_pays {capacity : Nat} (bound : capacity - display.capacity ≤ block)
    (affords : Affords context display (block + left)) :
    ∃ after, grow capacity context display = .ok () after ∧ Affords context after left ∧ after.output = display.output := by
  obtain ⟨_, spent, affords, same⟩ := collectionBytes_pays (affords.mono (Nat.add_le_add_right bound left))
  obtain ⟨reserved, found, affords, same'⟩ := reserve_pays (capacity - display.output.length) affords
  refine ⟨{ reserved with capacity }, ?_, ⟨affords.quiet, affords.memory, affords.room, affords.steps, affords.bytes⟩, ?_⟩
  · unfold grow
    rw [ok_bind (rfl : current context display = .ok display display), ok_bind spent, ok_bind found]
    rfl
  · exact same'.trans same

theorem makeRoom_pays (next : Nat) (room : next ≤ context.cap) (affords : Affords context display (block + left)) :
    ∃ after, makeRoom next context display = .ok () after ∧ Affords context after left ∧
      after.output = display.output := by
  unfold makeRoom
  rw [ok_bind (rfl : surroundings context display = .ok context display),
    ok_bind (rfl : current context display = .ok display display), if_neg (Nat.not_lt.mpr room)]
  split
  · exact grow_pays (by omega) affords
  · exact ⟨display, rfl, affords.mono (Nat.le_add_left left block), rfl⟩

theorem extend_pays (chunk : List UInt8) (affords : Affords context display (chunk.length + left)) :
    Affords context { display with output := display.output ++ chunk } left := by
  have rest := affords.mono (Nat.le_add_left left chunk.length)
  refine ⟨rest.quiet, rest.memory, ?_, rest.steps, rest.bytes⟩
  have room := affords.room
  rw [length_append]
  omega

/-- What is left to write gets shorter by at least a byte in every pass. -/
theorem writeFrom_ok (enough : encoded.length ≤ passes) (ran : writeFrom passes encoded context display = .ok () after) : after.output = display.output ++ encoded := by
  induction passes generalizing encoded display with
  | zero =>
    cases eq_nil_of_length_eq_zero (Nat.le_zero.mp enough)
    cases ran
    exact (append_nil _).symm
  | succ passes ih =>
    cases encoded with
    | nil =>
      cases ran
      exact (append_nil _).symm
    | cons byte rest =>
      obtain ⟨_, started, first, ran⟩ := bind_returns ran
      rw [ok_bind (rfl : current context started = .ok started started)] at ran
      obtain ⟨_, roomy, found, ran⟩ := bind_returns ran
      obtain ⟨_, extended, added, ran⟩ := bind_returns ran
      have same := startBlock_ok first
      have same' := makeRoom_ok found
      have positive : 0 < min (byte :: rest).length (block - started.output.length % block) := by
        have below : started.output.length % block < block := Nat.mod_lt _ (by decide)
        rw [length_cons]
        omega
      cases added
      rw [ih (by rw [length_drop]; omega) ran]
      rw [same', same, append_assoc, take_append_drop]

/-- A pass costs at most a step, the growth of the buffer by a block, and a block of output. -/
theorem writeFrom_pays (passes : Nat) (encoded : List UInt8)
    (affords : Affords context display (passes * (1 + block + block) + left)) :
    ∃ after, writeFrom passes encoded context display = .ok () after ∧ Affords context after left := by
  induction passes generalizing encoded display with
  | zero => exact ⟨display, rfl, affords.mono (Nat.le_add_left left _)⟩
  | succ passes ih =>
    cases encoded with
    | nil => exact ⟨display, rfl, affords.mono (Nat.le_add_left left _)⟩
    | cons byte rest =>
      obtain ⟨started, first, affords⟩ := startBlock_pays
        (affords.mono (by rw [Nat.succ_mul]; omega) : Affords context display (passes * (1 + block + block) + left + block + block + 1))
      obtain ⟨count, known⟩ : ∃ count, min (byte :: rest).length (block - started.output.length % block) = count := ⟨_, rfl⟩
      have short : count ≤ block := by omega
      have taken : ((byte :: rest).take count).length ≤ block := Nat.le_trans (length_take_le _ _) short
      have room := affords.room
      obtain ⟨roomy, found, affords, same⟩ := makeRoom_pays (started.output.length + count) (by omega)
        (affords.mono (Nat.le_of_eq (Nat.add_comm _ _)))
      have affords := extend_pays ((byte :: rest).take count) (affords.mono
        (by rw [Nat.add_comm]; omega : ((byte :: rest).take count).length + (passes * (1 + block + block) + left) ≤ _))
      obtain ⟨after, ran, affords⟩ := ih ((byte :: rest).drop count) affords
      refine ⟨after, ?_, affords⟩
      rw [writeFrom, ok_bind first, ok_bind (rfl : current context started = .ok started started), known, ok_bind found]
      exact ran

theorem prints_writeStr (text : List Char) : Prints meter (writeStr text) True (bytes text) := by
  constructor
  · intro context display after ran
    exact ⟨trivial, writeFrom_ok (Nat.le_refl _) ran⟩
  · intro _
    exact ⟨_, fun affords => writeFrom_pays (bytes text).length (bytes text) affords⟩

theorem prints_write (pieces : List (List Char)) : Prints meter (write pieces) True (bytes pieces.flatten) := by
  induction pieces with
  | nil => exact nothing
  | cons piece _ ih =>
    refine ((prints_writeStr piece).seq ih).congr (by simp) ?_
    rw [flatten_cons, bytes_append]

/-! ## Texts in blocks -/

theorem textBlock_pos {room : Nat} (large : 4 ≤ room) (c : Char) (text : List Char) : 0 < textBlock room (c :: text) := by
  have small := Char.utf8Size_le_four c
  unfold textBlock
  rw [if_pos (by omega)]
  omega

/-- What a chunk is written as. -/
def chunkText (quotedContent : Bool) (text : List Char) : List Char :=
  if quotedContent then text.flatMap scalarText else text

theorem chunkText_append (quotedContent : Bool) (front back : List Char) :
    chunkText quotedContent (front ++ back) = chunkText quotedContent front ++ chunkText quotedContent back := by
  cases quotedContent with
  | false => rfl
  | true => exact flatMap_append

theorem prints_writeChunk (quotedContent : Bool) (chunk : List Char) :
    Prints meter (writeChunk quotedContent chunk) True (bytes (chunkText quotedContent chunk)) := by
  cases quotedContent with
  | false => exact prints_writeStr chunk
  | true =>
    refine (prints_write (writeStringContent chunk)).congr Iff.rfl ?_
    rw [writeStringContent_flatten]
    rfl

theorem prints_textFrom (quotedContent : Bool) {text : List Char} (enough : text.length ≤ passes) :
    Prints meter (textFrom quotedContent passes text) True (bytes (chunkText quotedContent text)) := by
  induction passes generalizing text with
  | zero =>
    cases eq_nil_of_length_eq_zero (Nat.le_zero.mp enough)
    cases quotedContent <;> exact nothing
  | succ passes ih =>
    cases text with
    | nil => cases quotedContent <;> exact nothing
    | cons c text =>
      have positive := textBlock_pos (by decide : 4 ≤ block) c text
      have rest := ih (by
        rw [length_drop]
        omega : ((c :: text).drop (textBlock block (c :: text))).length ≤ passes)
      refine ((prints_input _).seq ((prints_writeChunk quotedContent _).seq rest)).congr (by simp) ?_
      rw [nil_append, ← bytes_append, ← chunkText_append, take_append_drop]

/-- A text is written the same in blocks as at once. -/
theorem prints_text (content : List Char) (quotedContent : Bool) :
    Prints meter (text content quotedContent) True (bytes (chunkText quotedContent content)) :=
  prints_textFrom quotedContent (Nat.le_refl _)

theorem prints_quoted (name : List Char) : Prints meter (quoted name) True (bytes (writeQuoted name).flatten) := by
  refine ((prints_writeStr ['"']).seq ((prints_text name true).seq (prints_writeStr ['"']))).congr (by simp) ?_
  rw [← bytes_append, ← bytes_append]
  unfold writeQuoted
  rw [flatten_append, flatten_append, writeStringContent_flatten, append_assoc]
  rfl

theorem writeBytes_append (front back : List UInt8) : writeBytes (front ++ back) = writeBytes front ++ writeBytes back :=
  flatMap_append

/-- So are bytes. -/
theorem prints_bytesFrom (enough : encoded.length ≤ passes) :
    Prints meter (bytesFrom passes encoded) True (bytes (writeBytes encoded).flatten) := by
  induction passes generalizing encoded with
  | zero =>
    cases eq_nil_of_length_eq_zero (Nat.le_zero.mp enough)
    exact nothing
  | succ passes ih =>
    cases encoded with
    | nil => exact nothing
    | cons byte rest =>
      have shorter := ih (by
        have positive : 0 < block := by decide
        rw [length_drop]
        omega : ((byte :: rest).drop block).length ≤ passes)
      refine ((prints_input _).seq ((prints_write _).seq shorter)).congr (by simp) ?_
      rw [nil_append, ← bytes_append, ← flatten_append, ← writeBytes_append, take_append_drop]

theorem prints_when {program : Printer} {able : Prop} {text : List UInt8} (prints : Prints meter program able text)
    (test : Bool) : Prints meter (when test program) (test = true → able) (if test then text else []) := by
  cases test with
  | true => exact prints.congr (by simp) rfl
  | false => exact nothing.congr (by simp) rfl

end Opaal.Operational.Display
