import Opaal.Machine.Outcome
import Opaal.Operational.Stdio

/-!
# What a call is charged for

A call starts in a balanced state of the host and moves bytes under a contract: what it asked for,
which counts its transfers may leave, and whether it reads.  Every step of a call keeps the counter
equal to what was moved before it and what it has moved so far, whatever the host reports.
-/

namespace Opaal.Operational

open Opaal.Machine
open Opaal.Runtime (ResourceBudget)

variable {F C α β : Type} {environment : Environment F C} {world : World}
  {failed : ModuleError → World → Prop}

/-- A call ends with a value or with an error; it does not panic. -/
def Stops (failed : ModuleError → World → Prop) : Stop → World → Prop
  | .failed error, world => failed error world
  | .panicked _, _ => False
  | .unfinished, _ => True

/-- Whatever the budget is and whenever the environment is asked. -/
abbrev Gives (environment : Environment F C) (program : Operation F C α) (world : World)
    (failed : ModuleError → World → Prop) (post : α → World → Prop) : Prop :=
  Yields Evaluation.world program environment world (Stops failed) post

/-- However the program may stop. -/
abbrev Leaves (environment : Environment F C) (program : Operation F C α) (world : World)
    (stops : Stop → World → Prop) (post : α → World → Prop) : Prop :=
  Yields Evaluation.world program environment world stops post

/-! ## Steps -/

variable {post : α → World → Prop} {stops : Stop → World → Prop}

theorem fail_gives {error : ModuleError} (holds : stops (.failed error) world) :
    Leaves environment (fail error) world stops post := .throw holds

theorem ask_gives (answer : Environment F C → Nat → α) :
    Leaves environment (ask answer) world stops fun _ after => after = world := by
  intro state same
  exact same

/-- The state is read and the rest goes on with it. -/
theorem standard_step {rest : StandardState → Operation F C α}
    (second : Leaves environment (rest world.standard) world stops post) :
    Leaves environment (standard >>= rest) world stops post := by
  have first : Leaves environment standard world stops fun state after => state = world.standard ∧ after = world := by
    rintro state rfl
    exact ⟨rfl, rfl⟩
  refine first.bind ?_
  rintro state after ⟨isState, isWorld⟩
  rw [isState, isWorld]
  exact second

theorem update_gives (change : StandardState → StandardState) :
    Leaves environment (update change) world stops fun _ after => after = { world with standard := change world.standard } := by
  rintro state rfl
  rfl

theorem useHost_gives (use : HostUse) :
    Leaves environment (useHost use) world stops fun _ after => after = { world with uses := world.uses ++ [use] } := by
  rintro state rfl
  rfl

theorem spend_gives {charge : ResourceBudget → Option ResourceBudget} (refused : stops (.failed limit) world) :
    Leaves environment (spend charge) world stops fun _ after => after = world := by
  rintro state rfl
  unfold spend
  cases charge state.budget with
  | some => rfl
  | none => exact refused

theorem chargeTimes_gives (refused : stops (.failed limit) world) (count : Nat) :
    Leaves environment (chargeTimes count) world stops fun _ after => after = world := by
  induction count with
  | zero => exact .pure rfl
  | succ _ ih => exact .step (spend_gives refused) fun _ => ih

theorem poll_gives (cancelled : ∀ reason, stops (.failed (.cancelled reason)) world) :
    Leaves environment poll world stops fun _ after => after = world := by
  refine .step (ask_gives _) fun reason => ?_
  cases reason with
  | some reason => exact fail_gives (cancelled reason)
  | none => exact .pure rfl

theorem authorize_gives (refused : ∀ error, stops (.failed error) world) :
    Leaves environment authorize world stops fun _ after => after = world := by
  refine .step (poll_gives fun reason => refused _) fun _ => ?_
  refine .step (ask_gives _) fun verdict => ?_
  split
  · exact .pure rfl
  · exact fail_gives (refused _)

theorem adapterError_gives (refused : ∀ error, stops (.failed error) world) (error : OperationalError) :
    Leaves environment (adapterError error) world stops post := by
  refine .step (ask_gives _) fun redact => ?_
  dsimp only
  split
  · refine .step (ask_gives _) fun reason => ?_
    cases reason <;> exact fail_gives (refused _)
  · exact fail_gives (refused _)
  · exact fail_gives (refused _)

/-- A host that is bound is there. -/
theorem bound_gives (refused : ∀ error, stops (.failed error) world) (stale : String) :
    Leaves environment (bound stale) world stops fun _ after => after = world ∧ world.standard.host = true := by
  refine standard_step ?_
  refine .step (ask_gives _) fun available => ?_
  split
  · exact fail_gives (refused _)
  · next present =>
    have host : world.standard.host = true := by
      cases held : world.standard.host with
      | true => rfl
      | false => simp [held] at present
    refine .step (ask_gives _) fun same => ?_
    split
    · exact .pure ⟨rfl, host⟩
    · exact fail_gives (refused _)

theorem finish_gives {result : Except ModuleError α} (returns : ∀ value, result = .ok value → post value world)
    (refuses : ∀ error, result = .error error → stops (.failed error) world) :
    Leaves environment (finish result) world stops post := by
  cases result with
  | ok value => exact .pure (returns value rfl)
  | error error => exact fail_gives (refuses error rfl)

theorem expectHost_gives (present : world.standard.host = true) (message : String) :
    Leaves environment (expectHost message) world stops fun _ after => after = world := by
  refine standard_step ?_
  rw [if_pos present]
  exact .pure rfl

/-- Nothing but the cleanup error changes. -/
theorem keepCleanupError_gives (error : Option OperationalError) :
    Leaves environment (keepCleanupError error) world stops fun _ after =>
      ∃ kept, after = { world with standard := { world.standard with cleanupError := kept } } :=
  (update_gives _).mono (fun _ _ same => ⟨_, same⟩) fun _ _ held => held

/-- A host that is closed was there. -/
theorem closeHost_gives (text : (String → String) → String → String) :
    Gives environment (closeHost text) world failed fun _ after =>
      (world.standard.host = false ∧ after = world) ∨
      (world.standard.host = true ∧ ∃ kept, after =
        { standard := { world.standard with host := false, cleanupError := kept }, uses := world.uses ++ [.close] }) := by
  refine standard_step ?_
  split
  · next present =>
    refine .step (update_gives _) fun _ => ?_
    refine .step (useHost_gives _) fun _ => ?_
    refine .step (ask_gives _) fun error => ?_
    refine .step (ask_gives _) fun redact => ?_
    refine (keepCleanupError_gives _).mono ?_ fun _ _ held => held
    rintro _ _ ⟨kept, rfl⟩
    exact .inr ⟨present, kept, rfl⟩
  · next absent => exact .pure (.inl ⟨Bool.eq_false_iff.mpr absent, rfl⟩)

/-- The outcome of a program is returned. -/
theorem outcome_gives {program : Operation F C α} (gives : Gives environment program world failed post)
    {never : ModuleError → World → Prop} :
    Gives environment (outcome program) world never fun result after =>
      match result with
      | .ok value => post value after
      | .error error => failed error after := by
  intro state same
  have ended := gives state same
  unfold outcome
  cases run : program environment state with
  | ok =>
    rw [run] at ended
    exact ended
  | error stop =>
    rw [run] at ended
    cases stop with
    | failed | panicked => exact ended
    | unfinished => trivial

/-! ## Contracts -/

/-- The state a call starts in, what it asks for, and which counts its transfers may leave. -/
structure Contract where
  start : World
  requested : Nat
  moved : Nat → Nat → Prop
  reads : Bool

namespace World

def confirmed (world : World) : Nat := world.standard.progress.confirmedBytes

def uncertain (world : World) : Nat := world.standard.progress.uncertainBytesUpperBound

end World

/-- A use that leaves the host open and reports what is possible. -/
def HostUse.Fair : HostUse → Prop
  | fill _ _ => True
  | read length report => impossible length report = false
  | write _ chunk report => impossible chunk.length report = false
  | close => False

/-- The host since the start of a call: it is as it was, or it was closed after its last use, the only
one that may be unfair. -/
inductive HostHistory (start world : World) : Prop
  | live (used : List HostUse) (uses : world.uses = start.uses ++ used) (host : world.standard.host = start.standard.host)
      (fair : ∀ use ∈ used, use.Fair) (absent : start.standard.host = false → used = [])
  | closed (used : List HostUse) (last : Option HostUse) (uses : world.uses = start.uses ++ (used ++ last.toList ++ [.close]))
      (fair : ∀ use ∈ used, use.Fair) (was : start.standard.host = true) (gone : world.standard.host = false)

structure Charged (contract : Contract) (world : World) : Prop where
  limits : world.standard.limits = contract.start.standard.limits
  roles : world.standard.roleProgress = contract.start.standard.roleProgress
  consumed : world.standard.consumedBytes =
    contract.start.standard.consumedBytes + (world.confirmed + world.uncertain)
  within : world.confirmed + world.uncertain ≤ world.standard.progress.requestedBytes
  asked : world.standard.progress.requestedBytes ≤ contract.requested
  room : world.standard.consumedBytes ≤ contract.start.standard.limits.maxHostBytes
  shape : contract.moved world.confirmed world.uncertain
  eof : world.standard.progress.eof = none ∨ (contract.reads = true ∧ world.standard.progress.eof = some true)

/-- What holds wherever a call ends. -/
structure Spent (contract : Contract) (world : World) : Prop where
  charged : Charged contract world
  history : HostHistory contract.start world

/-- The host is there and nothing of the last transfer is uncertain. -/
structure Ready (contract : Contract) (world : World) : Prop where
  charged : Charged contract world
  certain : world.uncertain = 0
  present : world.standard.host = true
  covered : world.confirmed ≤ world.standard.progress.admittedBytes
  admitted : world.standard.progress.admittedBytes ≤ world.standard.progress.requestedBytes
  reserved : contract.start.standard.consumedBytes + world.standard.progress.admittedBytes ≤
    contract.start.standard.limits.maxHostBytes
  opened : contract.start.standard.host = true
  uses : ∃ used, world.uses = contract.start.uses ++ used ∧ ∀ use ∈ used, use.Fair

variable {contract : Contract}

theorem Ready.spent (ready : Ready contract world) : Spent contract world := by
  obtain ⟨used, uses, fair⟩ := ready.uses
  refine ⟨ready.charged, .live used uses ?_ fair ?_⟩
  · rw [ready.present, ready.opened]
  · intro absent
    rw [ready.opened] at absent
    cases absent

/-- The cleanup error is nobody's business. -/
theorem Charged.cleanup (charged : Charged contract world) (kept : Option OperationalError) :
    Charged contract { world with standard := { world.standard with cleanupError := kept } } :=
  ⟨charged.limits, charged.roles, charged.consumed, charged.within, charged.asked, charged.room, charged.shape, charged.eof⟩

theorem Spent.cleanup (spent : Spent contract world) (kept : Option OperationalError) :
    Spent contract { world with standard := { world.standard with cleanupError := kept } } := by
  refine ⟨spent.charged.cleanup kept, ?_⟩
  cases spent.history with
  | live used uses host fair absent => exact .live used uses host fair absent
  | closed used last uses fair was gone => exact .closed used last uses fair was gone

theorem Ready.cleanup (ready : Ready contract world) (kept : Option OperationalError) :
    Ready contract { world with standard := { world.standard with cleanupError := kept } } :=
  ⟨ready.charged.cleanup kept, ready.certain, ready.present, ready.covered, ready.admitted, ready.reserved, ready.opened, ready.uses⟩

end Opaal.Operational
