import Opaal.Operational.Settlement
import Opaal.Artifact.Transfer

/-!
# The ledger of one evaluation

Calls follow one another on one state of the host, each with an environment and a budget of its own.
The counter of the host is the sum of what its four roles have moved, and no call can take it past its
limit.
-/

namespace Opaal.Operational

open Opaal.Machine List
open Opaal.Runtime
open Opaal.Workflow (RulesKept authorityEffectName declaredEffect drawsWords entropyOperation exceedsFill neverEmpty
  requestDisagrees streamOperation transferRole validateTransferOperation validateTransferOperation_ok)

variable {F C : Type}

/-! ## Calls -/

/-- A stream call is prepared first and begun later. -/
inductive Request (F C : Type) where
  | random (operation : String) (arguments : List (Value F C))
  | prepare (name : String) (arguments : List (Value F C))
  | stream (call : IoCall)

inductive Answer (F C : Type) where
  | value (value : Value F C)
  | prepared (call : IoCall)

namespace Request

def perform : Request F C → Operation F C (Answer F C)
  | random operation arguments => Answer.value <$> invokeWithDeadline operation arguments
  | prepare name arguments => Answer.prepared <$> prepareStdio name arguments
  | stream call => Answer.value <$> invokeStdioWithDeadline call

def contract (start : World) : Request F C → Contract
  | random operation arguments => randomContract operation arguments start
  | prepare _ _ => preparation start
  | stream call => streamContract call start

/-- The role under which the bytes of a call are recorded; a preparation has none. -/
def role : Request F C → AuthorityEffect
  | random _ _ | prepare _ _ => .entropySystem
  | stream call => call.effect

/-- What a call that returns has achieved. -/
def Achieved (start : World) : Request F C → Answer F C → World → Prop
  | random _ _, _, _ => True
  | prepare name _, .prepared call, _ => name ∈ call.names ∧ call.length ≤ start.standard.limits.maxCallBytes
  | prepare _ _, .value _, _ => False
  | stream call, _, world => Transferred start call world

end Request

/-- A call that ends in `result`, under some budget and at some time. -/
def Performs (environment : Environment F C) (request : Request F C) (before : World)
    (result : Except ModuleError (Answer F C)) (after : World) : Prop :=
  ∃ budget clock ended, outcome request.perform environment ⟨before, budget, clock⟩ = .ok result ended ∧ ended.world = after

/-- The states that calls lead to. -/
inductive Reaches (F C : Type) (start : World) : World → Prop
  | refl : Reaches F C start start
  | call {before after : World} {environment : Environment F C} {request : Request F C}
      {result : Except ModuleError (Answer F C)} (reached : Reaches F C start before)
      (performs : Performs environment request before result after) : Reaches F C start after

/-! ## One call -/

section OneCall

variable {environment : Environment F C} {request : Request F C} {before after : World}
  {result : Except ModuleError (Answer F C)}

theorem map_gives {α β : Type} {program : Operation F C α} {failed : ModuleError → World → Prop}
    {post : α → World → Prop} {mapped : β → World → Prop} (change : α → β)
    (gives : Gives environment program before failed post)
    (maps : ∀ value after, post value after → mapped (change value) after) :
    Gives environment (change <$> program) before failed mapped := by
  refine gives.bind ?_
  intro value after held
  exact Yields.pure (maps value after held)

theorem perform_gives (room : before.standard.consumedBytes ≤ before.standard.limits.maxHostBytes) :
    Gives environment request.perform before (Failed (request.contract before) request.role) fun answer after =>
      Settled (request.contract before) request.role after ∧ request.Achieved before answer after := by
  cases request with
  | random =>
    exact map_gives _ (invokeWithDeadline_gives room) fun _ _ settled => ⟨settled, trivial⟩
  | prepare => exact map_gives _ (prepareStdio_gives room) fun _ _ held => held
  | stream => exact map_gives _ (invokeStdioWithDeadline_gives room) fun _ _ held => held

/-- However a call ends, its bytes are settled. -/
structure Ended (request : Request F C) (before : World)
    (result : Except ModuleError (Answer F C)) (after : World) : Prop where
  settled : Settled (request.contract before) request.role after
  cancelled : ∀ reason, result = .error (.cancelled reason) → after.standard.host = false
  achieved : ∀ answer, result = .ok answer → request.Achieved before answer after

theorem Performs.ended (performs : Performs environment request before result after)
    (room : before.standard.consumedBytes ≤ before.standard.limits.maxHostBytes) : Ended request before result after := by
  obtain ⟨budget, clock, _, run, rfl⟩ := performs
  have gives := @outcome_gives _ _ _ _ _ _ _ _ (@perform_gives _ _ environment request before room) (fun _ _ => True)
    ⟨before, budget, clock⟩ rfl
  rw [run] at gives
  cases result with
  | ok =>
    refine ⟨gives.1, ?_, ?_⟩
    · intro reason other
      cases other
    · intro found same
      cases same
      exact gives.2
  | error error =>
    refine ⟨gives.settled, ?_, ?_⟩
    · intro reason same
      exact gives.cancelled reason (Except.error.inj same)
    · intro found other
      cases other

theorem contract_start (request : Request F C) (start : World) : (request.contract start).start = start := by
  cases request with
  | random => exact randomContract_start
  | prepare | stream => rfl

end OneCall

/-! ## Runs -/

/-- What the four roles have moved. -/
def RoleProgress.total (roles : RoleProgress) : Nat :=
  (roles.entropy.confirmedBytes + roles.entropy.uncertainBytesUpperBound) +
    (roles.stdin.confirmedBytes + roles.stdin.uncertainBytesUpperBound) +
    (roles.stdout.confirmedBytes + roles.stdout.uncertainBytesUpperBound) +
    (roles.stderr.confirmedBytes + roles.stderr.uncertainBytesUpperBound)

theorem RoleProgress.total_record (roles : RoleProgress) (progress : HostProgress) (effect : AuthorityEffect) :
    (roles.record progress effect).total =
      roles.total + (progress.confirmedBytes + progress.uncertainBytesUpperBound) := by
  cases effect <;> simp only [RoleProgress.record, RoleProgress.total, TransferCounts.add] <;> omega

structure Balanced (limits : StandardLimits) (world : World) : Prop where
  fixed : world.standard.limits = limits
  consumed : world.standard.consumedBytes = world.standard.roleProgress.total
  room : world.standard.consumedBytes ≤ limits.maxHostBytes

section Runs

variable {environment : Environment F C} {request : Request F C} {before after world : World}
  {result : Except ModuleError (Answer F C)} {limits : StandardLimits}

theorem Balanced.ended (balanced : Balanced limits before) (performs : Performs environment request before result after) :
    Ended request before result after := by
  refine performs.ended ?_
  rw [balanced.fixed]
  exact balanced.room

theorem Balanced.step (balanced : Balanced limits before) (performs : Performs environment request before result after) :
    Balanced limits after := by
  have settled := (balanced.ended performs).settled
  obtain ⟨same, roles, admitted, consumed, _, _, room, _, _, _⟩ := settled
  rw [contract_start] at same roles consumed room
  refine ⟨same.trans balanced.fixed, ?_, ?_⟩
  · rw [consumed, roles, RoleProgress.total_record, balanced.consumed, admitted]
    rfl
  · rw [← balanced.fixed]
    exact room

theorem Balanced.reaches (balanced : Balanced limits before) (reached : Reaches F C before after) :
    Balanced limits after := by
  induction reached with
  | refl => exact balanced
  | call _ performs ih => exact ih.step performs

theorem balanced_new {host : Bool} {standard : StandardState} (fresh : StandardState.new host limits = .ok standard) :
    Balanced limits ⟨standard, []⟩ := by
  unfold StandardState.new at fresh
  split at fresh
  · cases fresh
  · cases fresh
    exact ⟨rfl, rfl, Nat.zero_le _⟩

/-- Nothing is asked of a host that is not there. -/
theorem Balanced.absent_step (balanced : Balanced limits before) (absent : before.standard.host = false)
    (performs : Performs environment request before result after) :
    after.standard.host = false ∧ after.uses = before.uses := by
  have history := (balanced.ended performs).settled.history
  rw [contract_start] at history
  cases history with
  | live _ uses host _ unused =>
    rw [unused absent, append_nil] at uses
    exact ⟨host.trans absent, uses⟩
  | closed _ _ _ _ was =>
    rw [absent] at was
    cases was

/-- A host that is gone is never used again. -/
structure Retired (F C : Type) (world : World) : Prop where
  gone : world.standard.host = false
  unused : ∀ later, Reaches F C world later → later.standard.host = false ∧ later.uses = world.uses

theorem Balanced.retired (balanced : Balanced limits world) (gone : world.standard.host = false) :
    Retired F C world := by
  refine ⟨gone, ?_⟩
  intro later reached
  induction reached with
  | refl => exact ⟨gone, rfl⟩
  | call earlier performs ih =>
    have step := (balanced.reaches earlier).absent_step ih.1 performs
    exact ⟨step.1, step.2.trans ih.2⟩

/-- A use whose report cannot be true. -/
def HostUse.reportsImpossible : HostUse → Bool
  | .read length report => impossible length report
  | .write _ chunk report => impossible chunk.length report
  | .fill _ _ | .close => false

theorem HostUse.Fair.possible {use : HostUse} (fair : use.Fair) : use.reportsImpossible = false := by
  cases use with
  | read | write => exact fair
  | fill | close => rfl

/-- After a report that cannot be true the host is closed and that is all. -/
theorem HostHistory.impossible_last {start : World} (history : HostHistory start world) {earlier later : List HostUse}
    {use : HostUse} (uses : world.uses = start.uses ++ (earlier ++ use :: later)) (untrue : use.reportsImpossible = true) :
    later = [.close] ∧ world.standard.host = false := by
  have possible : ∀ used : List HostUse, (∀ use ∈ used, use.Fair) → use ∉ used := by
    intro used fair member
    rw [(fair use member).possible] at untrue
    cases untrue
  cases history with
  | live used all _ fair =>
    have same : used = earlier ++ use :: later := append_cancel_left (all.symm.trans uses)
    exact absurd (same ▸ mem_append_right earlier mem_cons_self) (possible used fair)
  | closed used last all fair _ gone =>
    have same : used ++ last.toList ++ [.close] = earlier ++ use :: later := append_cancel_left (all.symm.trans uses)
    refine ⟨?_, gone⟩
    rw [append_assoc] at same
    rcases append_eq_append_iff.mp same with ⟨rest, _, isLast⟩ | ⟨rest, isUsed, isLater⟩
    · -- The use is not among the fair ones: it is the last one or the closing.
      cases last with
      | none =>
        cases rest with
        | nil =>
          cases isLast
          cases untrue
        | cons => simp at isLast
      | some =>
        cases rest with
        | nil =>
          cases isLast
          rfl
        | cons _ rest =>
          cases rest with
          | nil =>
            simp at isLast
            rw [← isLast.2.1] at untrue
            cases untrue
          | cons => simp at isLast
    · cases rest with
      | nil =>
        cases last with
        | none =>
          cases isLater
          cases untrue
        | some =>
          cases isLater
          rfl
      | cons first =>
        have first : use = first := by
          simp at isLater
          exact isLater.1
        exact absurd (by rw [isUsed, first]; simp) (possible used fair)

end Runs

/-! ## The journal -/

section Journal

variable {before after : World} {limits : StandardLimits}

/-- The limits that a host is given are within those of the program. -/
structure WithinLimits (limits : StandardLimits) : Prop where
  call : limits.maxCallBytes ≤ maxCallBytes
  candidates : limits.maxIntegerCandidates ≤ maxIntegerCandidates

theorem withinLimits_new {host : Bool} {standard : StandardState} (fresh : StandardState.new host limits = .ok standard) :
    WithinLimits limits := by
  unfold StandardState.new at fresh
  split at fresh
  · cases fresh
  · next allowed =>
    simp only [not_or, Nat.not_lt] at allowed
    exact ⟨allowed.1, allowed.2.2.1⟩

variable {arguments : List (Value F C)} {name : String}

/-- The arguments of a random call are those of the operation it is named after. -/
theorem parse_named {operation : String} {cap : Nat} {call : RandomCall}
    (parsed : RandomCall.parse operation arguments cap = .ok call) :
    (operation = "int" ∧ ∃ min width, call = .int min width) ∨ (operation = "float" ∧ call = .float) ∨
      (operation = "bytes" ∧ ∃ count, call = .bytes count ∧ count ≤ cap) := by
  unfold RandomCall.parse at parsed
  split at parsed
  · split at parsed
    · cases parsed
    · cases parsed
      exact .inl ⟨rfl, _, _, rfl⟩
  · cases parsed
    exact .inr (.inl ⟨rfl, rfl⟩)
  · split at parsed
    · cases parsed
    · split at parsed
      · cases parsed
      · next fits =>
        cases parsed
        exact .inr (.inr ⟨rfl, _, rfl, Nat.le_of_not_lt fits⟩)
  · cases parsed

/-- Words that were moved are words that were admitted. -/
theorem words_admitted {confirmed uncertain : Nat} (moved : WordsMoved confirmed uncertain) :
    confirmed % 8 = 0 ∧ (uncertain = 0 ∨ uncertain = 8) ∧ (confirmed + uncertain) % 8 = 0 := by
  obtain ⟨words, last⟩ := moved
  omega

theorem words_fill {confirmed uncertain : Nat} (words : confirmed % 8 = 0) (last : uncertain = 0 ∨ uncertain = 8)
    (operation : String) : exceedsFill operation confirmed uncertain = false := by
  rcases last with rfl | rfl <;> simp [exceedsFill, maxEntropyFillBytes, words]

theorem requestedBytes_int (min : Int64) (width candidates : Nat) :
    (RandomCall.int min width).requestedBytes candidates = 0 ∨
      (RandomCall.int min width).requestedBytes candidates = candidates * 8 := by
  show (if width = 1 then 0 else candidates * 8) = 0 ∨ (if width = 1 then 0 else candidates * 8) = candidates * 8
  split
  · exact .inl rfl
  · exact .inr rfl

theorem random_rules {operation : String} {call : RandomCall} (within : WithinLimits before.standard.limits)
    (parsed : RandomCall.parse operation arguments before.standard.limits.maxCallBytes = .ok call)
    (settled : Settled (randomContract operation arguments before) .entropySystem after) :
    RulesKept "entropy" ("std::random::" ++ operation) (call.requestedBytes before.standard.limits.maxIntegerCandidates)
      after.standard.progress none := by
  obtain ⟨callBytes, candidates⟩ := within
  unfold maxCallBytes at callBytes
  unfold maxIntegerCandidates at candidates
  obtain ⟨_, _, admitted, _, atMost, asked, _, moved, _, _⟩ := settled
  rw [randomContract_ok parsed] at asked moved
  have requested : after.standard.progress.admittedBytes ≤
      call.requestedBytes before.standard.limits.maxIntegerCandidates := Nat.le_trans atMost asked
  rcases parse_named parsed with ⟨rfl, min, width, rfl⟩ | ⟨rfl, rfl⟩ | ⟨rfl, count, rfl, short⟩
  · obtain ⟨words, last, whole⟩ := words_admitted moved
    rw [← admitted] at whole
    have asks := requestedBytes_int min width before.standard.limits.maxIntegerCandidates
    have eights : (RandomCall.int min width).requestedBytes before.standard.limits.maxIntegerCandidates % 8 = 0 := by
      omega
    refine ⟨by omega, requested, ?_, Nat.le_of_eq admitted.symm, fun _ => words_fill words last _, ?_, .inl rfl⟩
    · simp [requestDisagrees, drawsWords, neverEmpty, eights, whole]
    · exact fun other => absurd other (by decide)
  · obtain ⟨words, last, whole⟩ := words_admitted moved
    rw [← admitted] at whole
    refine ⟨?_, requested, ?_, Nat.le_of_eq admitted.symm, fun _ => words_fill words last _, ?_, .inl rfl⟩
    · show 8 < 2 ^ 64
      decide
    · simp [requestDisagrees, drawsWords, neverEmpty, RandomCall.requestedBytes, whole]
    · exact fun other => absurd other (by decide)
  · have chunk : after.standard.progress.uncertainBytesUpperBound ≤ maxEntropyFillBytes := moved
    refine ⟨?_, requested, ?_, Nat.le_of_eq admitted.symm, ?_, ?_, .inl rfl⟩
    · show count < 2 ^ 64
      omega
    · simp [requestDisagrees, drawsWords, neverEmpty]
    · intro _
      simp [exceedsFill, drawsWords, chunk]
    · exact fun other => absurd other (by decide)

/-- A prepared call of a name that ends its line or reads is never empty. -/
theorem stream_agrees {call : IoCall} (named : name ∈ call.names) (admitted : Nat) :
    requestDisagrees ("std::io::" ++ name) call.requestedBytes admitted = false := by
  unfold IoCall.names at named
  split at named <;> simp at named
  · subst named
    simp [requestDisagrees, drawsWords, neverEmpty, IoCall.requestedBytes]
  · rcases named with rfl | rfl <;> simp [requestDisagrees, drawsWords, neverEmpty]
  · subst named
    simp [requestDisagrees, drawsWords, neverEmpty, IoCall.requestedBytes]
  · rcases named with rfl | rfl <;> simp [requestDisagrees, drawsWords, neverEmpty]
  · subst named
    simp [requestDisagrees, drawsWords, neverEmpty, IoCall.requestedBytes]

/-- The journal knows an operation under the effect that it declares. -/
theorem transferRole_declared {effect : AuthorityEffect} (declared : declaredEffect name = some effect) :
    transferRole ("std::io::" ++ name) = some ("standard-stream", authorityEffectName effect) := by
  unfold declaredEffect at declared
  split at declared <;> cases declared <;> rfl

theorem stream_rules {call : IoCall} (within : WithinLimits before.standard.limits) (named : name ∈ call.names)
    (short : call.length ≤ before.standard.limits.maxCallBytes)
    (settled : Settled (streamContract call before) call.effect after) :
    RulesKept "standard-stream" ("std::io::" ++ name) call.requestedBytes after.standard.progress
      after.standard.progress.eof := by
  obtain ⟨callBytes, _⟩ := within
  unfold maxCallBytes at callBytes
  obtain ⟨_, _, admitted, _, atMost, asked, _, moved, eof, _⟩ := settled
  have requested : call.requestedBytes ≤ call.length + 1 := by
    cases call with
    | read => exact Nat.le_refl _
    | write => exact Nat.le_succ _
  refine ⟨by omega, Nat.le_trans atMost asked, stream_agrees named _, Nat.le_of_eq admitted.symm,
    fun other => absurd other (by decide), fun _ => moved, ?_⟩
  rcases eof with none | ⟨reads, seen⟩
  · exact .inl none
  · refine .inr ⟨?_, seen⟩
    cases call with
    | read => rw [mem_singleton.mp named]; rfl
    | write => cases reads

end Journal

/-! ## Every call of every run -/

/-- The host was closed, if there was one, and is never used again. -/
structure Closed (F C : Type) (before after : World) : Prop where
  last : before.standard.host = true → after.uses.getLast? = some .close
  retired : Retired F C after

structure CallAccounts (limits : StandardLimits) (request : Request F C) (before : World)
    (result : Except ModuleError (Answer F C)) (after : World) : Prop where
  admitted : after.standard.progress.admittedBytes = after.confirmed + after.uncertain
  within : after.standard.progress.admittedBytes ≤ after.standard.progress.requestedBytes
  transferred : ∀ call answer, request = .stream call → result = .ok answer → Transferred before call after
  prepared : ∀ name arguments call, request = .prepare name arguments → result = .ok (.prepared call) →
    name ∈ call.names ∧ call.length ≤ limits.maxCallBytes
  cancelled : ∀ reason, result = .error (.cancelled reason) → Closed F C before after
  impossible : ∀ earlier use later, after.uses = before.uses ++ (earlier ++ use :: later) →
    use.reportsImpossible = true → later = [.close] ∧ Closed F C before after
  entropyRules : ∀ operation arguments call, request = .random operation arguments →
    RandomCall.parse operation arguments limits.maxCallBytes = .ok call →
    validateTransferOperation "entropy.system"
      (entropyOperation operation (call.requestedBytes limits.maxIntegerCandidates) after.standard.progress) true = .ok ()
  streamRules : ∀ call name effect, request = .stream call → name ∈ call.names → call.length ≤ limits.maxCallBytes →
    declaredEffect name = some effect →
    validateTransferOperation (authorityEffectName effect)
      (streamOperation name effect call.requestedBytes after.standard.progress) true = .ok ()

section Account

variable {environment : Environment F C} {request : Request F C} {before after : World}
  {result : Except ModuleError (Answer F C)} {limits : StandardLimits}

theorem HostHistory.closes (history : HostHistory before after) (gone : after.standard.host = false)
    (present : before.standard.host = true) : after.uses.getLast? = some .close := by
  cases history with
  | live _ _ host =>
    rw [host, present] at gone
    cases gone
  | closed _ _ uses =>
    rw [uses, ← append_assoc, List.getLast?_concat]

theorem Balanced.accounts (balanced : Balanced limits before) (within : WithinLimits limits)
    (performs : Performs environment request before result after) : CallAccounts limits request before result after := by
  have ended := balanced.ended performs
  have settled := ended.settled
  have history := settled.history
  rw [contract_start] at history
  have closed : after.standard.host = false → Closed F C before after := fun gone =>
    ⟨history.closes gone, (balanced.step performs).retired gone⟩
  rw [← balanced.fixed] at within
  refine ⟨settled.admitted, settled.within, ?_, ?_, ?_, ?_, ?_, ?_⟩
  · rintro call answer rfl isAnswer
    exact ended.achieved answer isAnswer
  · rintro name arguments call rfl isPrepared
    rw [← balanced.fixed]
    exact ended.achieved (.prepared call) isPrepared
  · intro reason isCancelled
    exact closed (ended.cancelled reason isCancelled)
  · intro earlier use later uses untrue
    obtain ⟨isLater, gone⟩ := history.impossible_last uses untrue
    exact ⟨isLater, closed gone⟩
  · rintro operation arguments call rfl parsed
    rw [← balanced.fixed] at parsed ⊢
    have role : transferRole ("std::random::" ++ operation) = some ("entropy", "entropy.system") := by
      rcases parse_named parsed with ⟨rfl, _⟩ | ⟨rfl, _⟩ | ⟨rfl, _⟩ <;> rfl
    exact validateTransferOperation_ok role (random_rules within parsed settled)
  · rintro call name effect rfl named short declared
    rw [← balanced.fixed] at short
    exact validateTransferOperation_ok (transferRole_declared declared) (stream_rules within named short settled)

/-- Whatever the host answers and whenever a call is cancelled or refused: the counter is what the roles
have moved and stays within its limit, and every call accounts for its own bytes. -/
theorem calls_account {host : Bool} {standard : StandardState} (fresh : StandardState.new host limits = .ok standard)
    {world : World} (reached : Reaches F C ⟨standard, []⟩ world) :
    world.standard.consumedBytes = world.standard.roleProgress.total ∧
      world.standard.consumedBytes ≤ limits.maxHostBytes ∧
      ∀ (environment : Environment F C) (request : Request F C)
        (result : Except ModuleError (Answer F C)) (after : World),
        Performs environment request world result after → CallAccounts limits request world result after := by
  have balanced := (balanced_new fresh).reaches reached
  refine ⟨balanced.consumed, balanced.room, ?_⟩
  intro environment request result after performs
  exact balanced.accounts (withinLimits_new fresh) performs

end Account

/-! ### A run -/

/-- Where a call leads with a budget that never runs out. -/
def Request.leadsTo (environment : Environment F C) (request : Request F C) (before : World) :
    Option World :=
  match outcome request.perform environment ⟨before, ResourceBudget.unlimited, 0⟩ with
  | .ok _ ended => some ended.world
  | .error _ _ => none

theorem Reaches.leads {environment : Environment F C} {request : Request F C}
    {start before after : World} (reached : Reaches F C start before)
    (leads : request.leadsTo environment before = some after) : Reaches F C start after := by
  unfold Request.leadsTo at leads
  split at leads
  · next result ended run =>
    cases leads
    exact reached.call ⟨_, _, ended, run, rfl⟩
  · cases leads

/-- A host that is interrupted once and then writes one byte at a time; of a read it reports more than it
was asked for. -/
def slowHost : Environment Unit Unit where
  poll _ := none
  verdict _ := .grantedEnforced
  available _ := true
  sameEvaluation _ := true
  redact text := text
  fill _ := (.ok (), fun _ => 0)
  read _ := (.ok 9, fun _ => 0)
  write clock := if clock < 8 then .error ⟨⟨.io .interrupted, "interrupted"⟩, 0, 0, none, none⟩ else .ok 1
  close _ := none
  display _ _ _ budget := (.ok [], budget)
  passes := 8

/-- A line of two characters is written, then up to four bytes are read. -/
theorem calls_account_slow : ∃ line last : World,
    (Request.stream (.write .stdout [104, 105] true)).leadsTo slowHost ⟨{ host := true, limits := ⟨16, 64, 4, 1000⟩ }, []⟩ =
      some line ∧ (Request.stream (.read 4)).leadsTo slowHost line = some last ∧
    last.standard.host = false ∧ last.standard.consumedBytes = 8 ∧
    last.standard.consumedBytes = last.standard.roleProgress.total ∧ last.standard.consumedBytes ≤ 64 := by
  have writes : ∃ line, (Request.stream (.write .stdout [104, 105] true)).leadsTo slowHost
      ⟨{ host := true, limits := ⟨16, 64, 4, 1000⟩ }, []⟩ = some line ∧
      ∃ last, (Request.stream (.read 4)).leadsTo slowHost line = some last ∧
        last.standard.host = false ∧ last.standard.consumedBytes = 8 := by
    decide +kernel
  obtain ⟨line, wrote, last, read, gone, eight⟩ := writes
  have reached := (Reaches.refl.leads wrote).leads read
  have account := calls_account (show StandardState.new true ⟨16, 64, 4, 1000⟩ = .ok _ from rfl) reached
  exact ⟨line, last, wrote, read, gone, eight, account.1, account.2.1⟩

end Opaal.Operational
