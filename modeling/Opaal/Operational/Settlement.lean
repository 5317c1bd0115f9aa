import Opaal.Operational.Transfers

/-!
# What a call leaves behind

Every call ends by releasing what it did not use, recording what it moved under its role, and closing
the host when it was cancelled.
-/

namespace Opaal.Operational

open Opaal.Machine List
open Opaal.Runtime (ResourceBudget Value)

variable {F C α : Type} {environment : Environment F C} {world : World} {contract : Contract}
  {effect : AuthorityEffect}

/-- The state in which unused reservations are released and the role has its bytes. -/
def recorded (effect : AuthorityEffect) (world : World) : World :=
  let progress := { world.standard.progress with admittedBytes := world.confirmed + world.uncertain }
  { world with standard := { world.standard with
    progress := progress
    roleProgress := world.standard.roleProgress.record progress effect } }

structure Settled (contract : Contract) (effect : AuthorityEffect) (world : World) : Prop where
  limits : world.standard.limits = contract.start.standard.limits
  roles : world.standard.roleProgress = contract.start.standard.roleProgress.record world.standard.progress effect
  admitted : world.standard.progress.admittedBytes = world.confirmed + world.uncertain
  consumed : world.standard.consumedBytes = contract.start.standard.consumedBytes + world.standard.progress.admittedBytes
  within : world.standard.progress.admittedBytes ≤ world.standard.progress.requestedBytes
  asked : world.standard.progress.requestedBytes ≤ contract.requested
  room : world.standard.consumedBytes ≤ contract.start.standard.limits.maxHostBytes
  shape : contract.moved world.confirmed world.uncertain
  eof : world.standard.progress.eof = none ∨ (contract.reads = true ∧ world.standard.progress.eof = some true)
  history : HostHistory contract.start world

theorem Spent.settled (spent : Spent contract world) (effect : AuthorityEffect) :
    Settled contract effect (recorded effect world) := by
  obtain ⟨⟨limits, roles, consumed, within, asked, room, shape, eof⟩, history⟩ := spent
  refine ⟨limits, ?_, rfl, consumed, within, asked, room, shape, eof, ?_⟩
  · show world.standard.roleProgress.record _ effect = _
    rw [roles]
    rfl
  · cases history with
    | live used uses host fair absent => exact .live used uses host fair absent
    | closed used last uses fair was gone => exact .closed used last uses fair was gone

variable {start : World} {failed : ModuleError → World → Prop}

/-- A host that is closed was open until then. -/
theorem HostHistory.close (history : HostHistory start world) (present : world.standard.host = true)
    (kept : Option OperationalError) : HostHistory start
      { standard := { world.standard with host := false, cleanupError := kept }, uses := world.uses ++ [.close] } := by
  cases history with
  | live used uses host fair =>
    refine .closed used none ?_ fair (host.symm.trans present) rfl
    show world.uses ++ [.close] = start.uses ++ (used ++ [] ++ [.close])
    rw [uses, append_nil, append_assoc]
  | closed _ _ _ _ _ gone =>
    rw [present] at gone
    cases gone

theorem closeHost_settled (settled : Settled contract effect world) (text : (String → String) → String → String) :
    Gives environment (closeHost text) world failed fun _ after =>
      Settled contract effect after ∧ after.standard.host = false := by
  refine (closeHost_gives text).mono ?_ fun _ _ held => held
  rintro _ after (⟨absent, rfl⟩ | ⟨present, kept, rfl⟩)
  · exact ⟨settled, absent⟩
  · obtain ⟨limits, roles, admitted, consumed, within, asked, room, shape, eof, history⟩ := settled
    exact ⟨⟨limits, roles, admitted, consumed, within, asked, room, shape, eof, history.close present kept⟩, rfl⟩

/-- The host is closed when the call was cancelled, and nothing else happens. -/
theorem closeIfCancelled_gives (settled : Settled contract effect world) (text : (String → String) → String → String)
    (result : Except ModuleError α) :
    Gives environment (closeIfCancelled (closeHost text) result) world failed fun _ after =>
      Settled contract effect after ∧ (∀ reason, result = .error (.cancelled reason) → after.standard.host = false) ∧
        (∀ value, result = .ok value → after = world) := by
  unfold closeIfCancelled
  split
  · refine (closeHost_settled settled text).mono ?_ fun _ _ held => held
    rintro _ after ⟨closed, gone⟩
    exact ⟨closed, fun _ _ => gone, fun _ other => by cases other⟩
  · next other => exact .pure ⟨settled, fun reason same => (other reason same).elim, fun _ _ => rfl⟩

/-- How a call ends: its bytes are settled, and a cancelled call leaves no host. -/
structure Failed (contract : Contract) (effect : AuthorityEffect) (error : ModuleError) (world : World) : Prop where
  settled : Settled contract effect world
  cancelled : ∀ reason, error = .cancelled reason → world.standard.host = false

theorem settleCall_gives {call : Operation F C α} {success : α → World → Prop}
    (text : (String → String) → String → String)
    (gives : Gives environment call start (fun _ => Spent contract) fun value after => Spent contract after ∧ success value after) :
    Gives environment (settleCall effect (closeHost text) call) start (Failed contract effect) fun value after =>
      Settled contract effect after ∧ ∃ before, success value before ∧ after = recorded effect before := by
  refine (outcome_gives gives).bind ?_
  intro result before ended
  refine .step (update_gives _) fun _ => ?_
  refine .step (update_gives _) fun _ => ?_
  have settled : Settled contract effect (recorded effect before) := by
    cases result with
    | ok => exact ended.1.settled effect
    | error => exact Spent.settled ended effect
  refine (closeIfCancelled_gives settled text result).bind ?_
  rintro _ after ⟨closed, gone, kept⟩
  refine finish_gives ?_ ?_
  · rintro value rfl
    exact ⟨closed, before, ended.2, kept value rfl⟩
  · rintro error rfl
    exact ⟨closed, fun reason same => gone reason (congrArg Except.error same)⟩

/-! ## Random calls -/

theorem invokeWithDeadline_gives {operation : String} {arguments : List (Value F C)}
    (room : start.standard.consumedBytes ≤ start.standard.limits.maxHostBytes) :
    Gives environment (invokeWithDeadline operation arguments) start
      (Failed (randomContract operation arguments start) .entropySystem)
      fun _ => Settled (randomContract operation arguments start) .entropySystem := by
  have spends : Gives environment (invokeCall operation arguments) start
      (fun _ => Spent (randomContract operation arguments start)) fun _ after =>
        Spent (randomContract operation arguments start) after ∧ True :=
    (invokeCall_gives room).mono (fun _ _ spent => ⟨spent, trivial⟩) fun _ _ held => held
  exact (settleCall_gives _ spends).mono (fun _ _ held => held.1) fun _ _ held => held

/-! ## Stream calls -/

section Streams

variable {call : IoCall} {start : World} {name : String} {arguments : List (Value F C)}

variable {failed : ModuleError → World → Prop}

theorem stdioBinding_gives (refused : ∀ error, failed error world) :
    Gives environment (stdioBinding : Operation F C Unit) world failed fun _ after =>
      after = world ∧ world.standard.host = true := by
  refine .step (authorize_gives refused) fun _ => ?_
  exact bound_gives refused _

theorem stdioAdmission_gives (room : start.standard.consumedBytes ≤ start.standard.limits.maxHostBytes)
    (refused : ∀ error, failed error (begun start {})) :
    Gives environment (stdioAdmission call : Operation F C _) (begun start {}) failed fun progress after =>
      after = begun start {} ∧ Admitted (streamContract call start) progress ∧
        progress.admittedBytes = call.requestedBytes := by
  refine .step (poll_gives fun _ => refused _) fun _ => ?_
  refine (stdioBinding_gives refused).bind ?_
  rintro _ _ ⟨rfl, present⟩
  refine standard_step ?_
  dsimp only
  split
  · exact fail_gives (refused _)
  · next enough =>
    have left : call.requestedBytes ≤ start.standard.limits.maxHostBytes - start.standard.consumedBytes :=
      Nat.le_of_not_lt enough
    refine .pure ⟨rfl, ⟨rfl, Nat.le_refl _, ?_, ⟨rfl, rfl, rfl⟩, present⟩, rfl⟩
    show start.standard.consumedBytes + call.requestedBytes ≤ start.standard.limits.maxHostBytes
    omega

/-- What a stream call that returns has done. -/
def Transferred (start : World) : IoCall → World → Prop
  | .read _, world =>
    world.standard.progress.eof = some true ∧ world.confirmed < world.standard.progress.requestedBytes
  | .write stream bytes lf, world =>
    Delivered start stream (IoCall.payload bytes lf) world ∧ world.confirmed = (IoCall.payload bytes lf).length ∧
      world.standard.progress.requestedBytes = world.confirmed

theorem reserve_gives (refused : failed limit world) (cap : Nat) :
    Gives environment (reserve cap : Operation F C Unit) world failed fun _ after => after = world := by
  rintro state rfl
  unfold reserve
  cases ResourceBudget.chargeCollectionBytes cap state.budget with
  | some => rfl
  | none => exact refused

theorem transfer_gives {progress : HostProgress} (admitted : Admitted (streamContract call start) progress)
    (whole : progress.admittedBytes = call.requestedBytes) :
    Gives environment (transfer call : Operation F C _) (begun start progress)
      (fun _ => Spent (streamContract call start)) fun _ after =>
        Spent (streamContract call start) after ∧ Transferred start call after := by
  have ready : Ready (streamContract call start) (begun start progress) := admitted.ready (Nat.zero_le _)
  have nothing : (begun start progress).confirmed = 0 := admitted.nothing.1
  cases call with
  | read cap =>
    refine .step (reserve_gives ready.spent cap) fun _ => ?_
    have reading : Reading (streamContract (.read cap) start) cap [] (begun start progress) :=
      ⟨ready, nothing, Nat.zero_le _, whole, admitted.requested⟩
    refine (readAll_gives rfl rfl reading).mono ?_ fun _ _ held => held
    intro _ after read
    exact ⟨read.spent, read.eof, read.below⟩
  | write stream bytes lf =>
    have total : bytes.length + (if lf then ['\n'.toUInt8] else []).length =
        (IoCall.write stream bytes lf).requestedBytes := by
      cases lf <;> rfl
    have before : Sent (streamContract (.write stream bytes lf) start) stream
        (IoCall.write stream bytes lf).requestedBytes [] (begun start progress) :=
      ⟨ready, nothing, whole, admitted.requested, [], (append_nil _).symm, fun _ member => (by cases member), rfl⟩
    refine (writeSegment_gives rfl (by simp only [length_nil]; omega) before).bind ?_
    intro _ middle sent
    refine (writeSegment_gives rfl (Nat.le_of_eq total) sent).bind ?_
    intro _ after written
    have confirmed := written.confirmed
    refine .pure ⟨written.ready.spent, written.delivered, confirmed, ?_⟩
    rw [written.requested, confirmed, length_append, total]

/-- Recording changes nothing that a transfer has done. -/
theorem Transferred.recorded (transferred : Transferred start call world) (effect : AuthorityEffect) :
    Transferred start call (recorded effect world) := by
  cases call with
  | read | write => exact transferred

theorem invokeStdioWithDeadline_gives (room : start.standard.consumedBytes ≤ start.standard.limits.maxHostBytes) :
    Gives environment (invokeStdioWithDeadline call : Operation F C _) start
      (Failed (streamContract call start) call.effect) fun _ after =>
        Settled (streamContract call start) call.effect after ∧ Transferred start call after := by
  have nothing : Spent (streamContract call start) (begun start {}) := spent_begun room (Nat.zero_le _)
  refine .step (update_gives _) fun _ => ?_
  have moves : Gives environment (do
        let admitted ← stdioAdmission call
        updateProgress fun _ => admitted
        poll
        charge
        transfer call : Operation F C _) (begun start {})
      (fun _ => Spent (streamContract call start)) fun _ after =>
        Spent (streamContract call start) after ∧ Transferred start call after := by
    refine (stdioAdmission_gives room fun _ => nothing).bind ?_
    rintro progress _ ⟨rfl, admitted, whole⟩
    have ready : Ready (streamContract call start) (begun start progress) := admitted.ready (Nat.zero_le _)
    refine .step (update_gives _) fun _ => ?_
    refine .step (poll_gives fun _ => ready.spent) fun _ => ?_
    refine .step (spend_gives ready.spent) fun _ => ?_
    exact transfer_gives admitted whole
  refine (settleCall_gives _ moves).mono ?_ fun _ _ held => held
  rintro _ _ ⟨settled, _, transferred, rfl⟩
  exact ⟨settled, transferred.recorded call.effect⟩

/-! ### Preparation -/

/-- The operations a call may have been prepared for. -/
def IoCall.names : IoCall → List String
  | read _ => ["read_stdin"]
  | write .stdout _ false => ["print", "write_stdout"]
  | write .stdout _ true => ["println"]
  | write .stderr _ false => ["eprint", "write_stderr"]
  | write .stderr _ true => ["eprintln"]
  | write .stdin _ _ => []

/-- A preparation moves nothing. -/
def preparation (start : World) : Contract := ⟨start, 0, fun confirmed uncertain => confirmed = 0 ∧ uncertain = 0, false⟩

theorem settled_begun (room : start.standard.consumedBytes ≤ start.standard.limits.maxHostBytes) :
    Settled (preparation start) .entropySystem (begun start {}) := by
  refine ⟨rfl, ?_, rfl, rfl, Nat.le_refl _, Nat.le_refl _, room, ⟨rfl, rfl⟩, .inl rfl, ?_⟩
  · rfl
  · exact .live [] (append_nil _).symm rfl (fun _ member => by cases member) fun _ => rfl

/-- The stream and the line feed of a printing operation are those of its name. -/
theorem printing_names {name : String} (printing : name = "print" ∨ name = "println" ∨ name = "eprint" ∨ name = "eprintln")
    (bytes : List UInt8) :
    name ∈ (IoCall.write (if name = "eprint" ∨ name = "eprintln" then .stderr else .stdout) bytes (printsLine name)).names := by
  rcases printing with rfl | rfl | rfl | rfl <;> simp [IoCall.names, printsLine]

theorem showValue_gives (refused : ∀ error, failed error world)
    (display : ResourceBudget → Except ModuleError (List UInt8) × ResourceBudget) :
    Gives environment (parseCall.showValue display : Operation F C _) world failed fun _ after =>
      after = world := by
  rintro state rfl
  unfold parseCall.showValue
  obtain ⟨result, budget⟩ := display state.budget
  cases result with
  | ok => rfl
  | error error => exact refused error

theorem parseCall_gives (refused : ∀ error, failed error world) (cap : Nat) :
    Gives environment (parseCall name arguments cap) world failed fun call after =>
      after = world ∧ name ∈ call.names := by
  unfold parseCall
  split
  · split
    · exact fail_gives (refused _)
    · exact .pure ⟨rfl, mem_singleton.mpr rfl⟩
  · exact .pure ⟨rfl, by simp [IoCall.names]⟩
  · exact .pure ⟨rfl, by simp [IoCall.names]⟩
  · split
    · next printing =>
      dsimp only
      split
      · exact Yields.pure ⟨rfl, printing_names printing _⟩
      · refine (stdioBinding_gives refused).bind ?_
        rintro _ _ ⟨rfl, _⟩
        generalize (if printsLine name = true then 1 else 0) = lf
        split
        · exact fail_gives (refused _)
        · refine .step (ask_gives _) fun display => ?_
          refine .step (showValue_gives refused _) fun bytes => ?_
          exact Yields.pure ⟨rfl, printing_names printing _⟩
    · exact fail_gives (refused _)
  · exact fail_gives (refused _)

theorem prepareStdio_gives (room : start.standard.consumedBytes ≤ start.standard.limits.maxHostBytes) :
    Gives environment (prepareStdio name arguments) start (Failed (preparation start) .entropySystem) fun call after =>
      Settled (preparation start) .entropySystem after ∧ name ∈ call.names ∧
        call.length ≤ start.standard.limits.maxCallBytes := by
  have settled := settled_begun room
  refine .step (update_gives _) fun _ => ?_
  refine standard_step ?_
  have parses : Gives environment (do
        poll
        let call ← parseCall name arguments start.standard.limits.maxCallBytes
        if start.standard.limits.maxCallBytes < call.length then fail domain else return call)
      (begun start {}) (fun _ after => after = begun start {}) fun call after =>
        after = begun start {} ∧ name ∈ call.names ∧ call.length ≤ start.standard.limits.maxCallBytes := by
    refine .step (poll_gives fun _ => rfl) fun _ => ?_
    refine (parseCall_gives (fun _ => by rfl) _).bind ?_
    rintro call _ ⟨rfl, named⟩
    split
    · exact fail_gives rfl
    · next short => exact .pure ⟨rfl, named, Nat.le_of_not_lt short⟩
  refine (outcome_gives parses).bind ?_
  intro result after ended
  have same : after = begun start {} := by
    cases result with
    | ok => exact ended.1
    | error => exact ended
  subst same
  refine (closeIfCancelled_gives settled _ result).bind ?_
  rintro _ after ⟨closed, gone, _⟩
  refine finish_gives ?_ ?_
  · rintro call rfl
    exact ⟨closed, ended.2⟩
  · rintro error rfl
    exact ⟨closed, fun reason same => gone reason (congrArg Except.error same)⟩

end Streams

end Opaal.Operational
