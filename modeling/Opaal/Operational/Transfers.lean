import Opaal.Operational.Entropy

/-!
# What a stream is charged for

A chunk is charged by what its report proves; a report of more than the chunk is charged with all of
it and closes the host.  A write that returns has handed over its payload in order, and a read that
returns has seen the end of its input.
-/

namespace Opaal.Operational

open Opaal.Machine List

variable {F C : Type} {environment : Environment F C} {world : World} {contract : Contract}

/-! ## One chunk -/

/-- The state after one use of the host. -/
def afterUse (use : HostUse) (world : World) : World := { world with uses := world.uses ++ [use] }

/-- The state when so many bytes of a chunk are charged. -/
def withChunk (confirmed uncertain : Nat) (world : World) : World :=
  { world with standard := { world.standard with
    consumedBytes := world.standard.consumedBytes + (confirmed + uncertain)
    progress := { world.standard.progress with
      confirmedBytes := world.standard.progress.confirmedBytes + confirmed
      uncertainBytesUpperBound := uncertain } } }

section Chunk

variable {length confirmed uncertain : Nat} {use : HostUse} {report : Except TransferError Nat}

section

variable (ready : Ready contract world) (fits : length ≤ world.standard.progress.admittedBytes - world.confirmed)
include ready fits

/-- A chunk stays within what was admitted. -/
theorem Ready.chunk_charged (within : confirmed + uncertain ≤ length)
    (moved : contract.moved (world.confirmed + confirmed) uncertain) (use : HostUse) :
    Charged contract (withChunk confirmed uncertain (afterUse use world)) := by
  obtain ⟨⟨limits, roles, consumed, _, asked, room, _, eof⟩, certain, _, covered, admitted, reserved, _, _⟩ := ready
  simp only [World.confirmed, World.uncertain] at *
  refine ⟨limits, roles, ?_, ?_, asked, ?_, moved, eof⟩ <;>
    simp only [withChunk, afterUse, World.confirmed, World.uncertain] <;> omega

/-- The host is ready for the next chunk when nothing of the last one is uncertain. -/
theorem Ready.chunk_ready (within : confirmed ≤ length) (moved : contract.moved (world.confirmed + confirmed) 0)
    (fair : use.Fair) :
    Ready contract (withChunk confirmed 0 (afterUse use world)) := by
  have covered := ready.covered
  obtain ⟨earlier, uses, allFair⟩ := ready.uses
  refine ⟨ready.chunk_charged fits (by omega) moved use, rfl, ready.present, ?_, ready.admitted, ready.reserved,
    ready.opened, earlier ++ [use], ?_, ?_⟩
  · simp only [World.confirmed] at fits covered
    simp only [withChunk, afterUse, World.confirmed]
    omega
  · show world.uses ++ [use] = _
    rw [uses, append_assoc]
  · intro other member
    rcases mem_append.mp member with early | last
    · exact allFair other early
    · rw [mem_singleton.mp last]
      exact fair

end

/-- The same of any chunk, but for the use of the host. -/
theorem Ready.chunk_history (ready : Ready contract world) (confirmed uncertain : Nat) (fair : use.Fair) :
    HostHistory contract.start (withChunk confirmed uncertain (afterUse use world)) := by
  obtain ⟨earlier, uses, allFair⟩ := ready.uses
  refine .live (earlier ++ [use]) ?_ ?_ ?_ ?_
  · show world.uses ++ [use] = _
    rw [uses, append_assoc]
  · rw [ready.opened]
    exact ready.present
  · intro other member
    rcases mem_append.mp member with early | last
    · exact allFair other early
    · rw [mem_singleton.mp last]
      exact fair
  · intro absent
    rw [ready.opened] at absent
    cases absent

variable {failed : ModuleError → World → Prop}

theorem keepTransferCleanup_gives (report : Except TransferError Nat) :
    Gives environment (keepTransferCleanup report) world failed fun _ after =>
      ∃ kept, after = { world with standard := { world.standard with cleanupError := kept } } := by
  cases report with
  | ok => exact .pure ⟨_, rfl⟩
  | error => exact keepCleanupError_gives _

/-- What a chunk result says of the report. -/
structure ChunkSettled (report : Except TransferError Nat) (count : Option Nat) : Prop where
  moved : reported report = (count.getD 0, 0)
  exact : ∀ found, count = some found → report = .ok found

theorem chunkResult_gives (refused : ∀ error, failed error world) (report : Except TransferError Nat) :
    Gives environment (chunkResult report) world failed fun count after => after = world ∧ ChunkSettled report count := by
  cases report with
  | ok =>
    refine .pure ⟨rfl, rfl, ?_⟩
    intro found isFound
    cases isFound
    rfl
  | error error =>
    unfold chunkResult
    dsimp only
    split
    · next retry =>
      refine .pure ⟨rfl, ?_, fun found isFound => by cases isFound⟩
      obtain ⟨⟨noneConfirmed, noneUncertain⟩, _⟩ := retry
      show (error.confirmedBytes, error.uncertainBytesUpperBound) = (0, 0)
      rw [noneConfirmed, noneUncertain]
    · split
      · exact fail_gives (refused _)
      · split
        · exact fail_gives (refused _)
        · exact adapterError_gives refused _

/-- A host that reported more than it was asked for is closed. -/
theorem Ready.closed_history (ready : Ready contract world) (use : HostUse) (confirmed uncertain : Nat)
    (kept : Option OperationalError) : HostHistory contract.start
      { standard := { (withChunk confirmed uncertain (afterUse use world)).standard with host := false, cleanupError := kept }
        uses := (withChunk confirmed uncertain (afterUse use world)).uses ++ [.close] } := by
  obtain ⟨earlier, uses, fair⟩ := ready.uses
  refine .closed earlier (some use) ?_ fair ready.opened rfl
  show world.uses ++ [use] ++ [.close] = contract.start.uses ++ (earlier ++ [use] ++ [.close])
  rw [uses, append_assoc, append_assoc, append_assoc]

theorem settleChunk_gives (ready : Ready contract world)
    (fits : length ≤ world.standard.progress.admittedBytes - world.confirmed)
    (moved : ∀ confirmed uncertain, confirmed + uncertain ≤ length → contract.moved (world.confirmed + confirmed) uncertain)
    (fair : impossible length report = false → use.Fair) :
    Gives environment (settleChunk length report : Operation F C _) (afterUse use world)
      (fun _ => Spent contract) fun count after =>
        ChunkSettled report count ∧ count.getD 0 ≤ length ∧ Ready contract after ∧ after.uses = world.uses ++ [use] ∧
          after.standard.progress = { world.standard.progress with
            confirmedBytes := world.standard.progress.confirmedBytes + count.getD 0
            uncertainBytesUpperBound := 0 } := by
  obtain ⟨confirmed, uncertain, counts⟩ : ∃ confirmed uncertain, reported report = (confirmed, uncertain) := ⟨_, _, rfl⟩
  unfold settleChunk
  rw [counts]
  dsimp only
  split
  · refine .step (update_gives _) fun _ => ?_
    have whole := ready.chunk_charged fits (show 0 + length ≤ length by omega) (moved 0 length (by omega)) use
    have same : { afterUse use world with standard := { (afterUse use world).standard with
        consumedBytes := (afterUse use world).standard.consumedBytes + length
        progress := { (afterUse use world).standard.progress with uncertainBytesUpperBound := length } } } =
        withChunk 0 length (afterUse use world) := by
      simp [withChunk]
    rw [same]
    refine (closeHost_gives _).bind ?_
    rintro _ after (⟨absent, _⟩ | ⟨_, kept, rfl⟩)
    · have present : (withChunk 0 length (afterUse use world)).standard.host = true := ready.present
      rw [present] at absent
      cases absent
    · refine fail_gives ⟨?_, ready.closed_history use 0 length kept⟩
      exact ⟨whole.limits, whole.roles, whole.consumed, whole.within, whole.asked, whole.room, whole.shape, whole.eof⟩
  · next possible =>
    have isFair := fair (Bool.eq_false_iff.mpr possible)
    have within : confirmed + uncertain ≤ length := by
      simp only [impossible, counts, decide_eq_true_eq] at possible
      omega
    refine .step (update_gives _) fun _ => ?_
    refine (keepTransferCleanup_gives report).bind ?_
    rintro _ _ ⟨kept, rfl⟩
    have spent : Spent contract (withChunk confirmed uncertain (afterUse use world)) :=
      ⟨ready.chunk_charged fits within (moved _ _ within) use, ready.chunk_history _ _ isFair⟩
    have after := spent.cleanup kept
    refine .step (poll_gives fun _ => after) fun _ => ?_
    refine (chunkResult_gives (fun _ => after) report).mono ?_ fun _ _ held => held
    rintro count _ ⟨rfl, settled⟩
    obtain ⟨rfl, rfl⟩ := Prod.mk.inj (counts.symm.trans settled.moved)
    have next := (ready.chunk_ready fits within (moved _ _ within) isFair).cleanup kept
    exact ⟨settled, within, next, rfl, rfl⟩

end Chunk

/-! ## Reads -/

def IoCall.reads : IoCall → Bool
  | read _ => true
  | write _ _ _ => false

def streamContract (call : IoCall) (start : World) : Contract :=
  ⟨start, call.requestedBytes, ChunksMoved maxStreamChunkBytes, call.reads⟩

variable {failed : ModuleError → World → Prop}

theorem admitChunk_gives (refused : ∀ error, failed error world) (length : Nat) :
    Gives environment (admitChunk length : Operation F C Unit) world failed fun _ after => after = world := by
  refine .step (poll_gives fun reason => refused _) fun _ => ?_
  refine .step (spend_gives (refused _)) fun _ => ?_
  exact chargeTimes_gives (refused _) _

/-- The state when the end of the input was noted. -/
def withEof (report : Except TransferError Nat) (world : World) : World :=
  { world with standard := { world.standard with
    progress := if sawEof report then { world.standard.progress with eof := some true } else world.standard.progress } }

theorem noteEof_gives (report : Except TransferError Nat) :
    Gives environment (noteEof report : Operation F C Unit) world failed fun _ after =>
      after = withEof report world := by
  rintro state rfl
  rfl

theorem Ready.withEof (ready : Ready contract world) (reads : contract.reads = true) (report : Except TransferError Nat) :
    Ready contract (withEof report world) := by
  unfold Operational.withEof
  split
  · have charged : Charged contract { world with standard := { world.standard with
        progress := { world.standard.progress with eof := some true } } } :=
      ⟨ready.charged.limits, ready.charged.roles, ready.charged.consumed, ready.charged.within, ready.charged.asked,
        ready.charged.room, ready.charged.shape, .inr ⟨reads, rfl⟩⟩
    exact ⟨charged, ready.certain, ready.present, ready.covered, ready.admitted, ready.reserved, ready.opened, ready.uses⟩
  · exact ready

/-- The loop of a read: what was read so far is what was confirmed. -/
structure Reading (contract : Contract) (cap : Nat) (output : List UInt8) (world : World) : Prop where
  ready : Ready contract world
  confirmed : world.confirmed = output.length
  short : output.length ≤ cap
  admitted : world.standard.progress.admittedBytes = cap + 1
  requested : world.standard.progress.requestedBytes = cap + 1

/-- The end of the input was seen, within the cap. -/
structure ReadWhole (contract : Contract) (world : World) : Prop where
  spent : Spent contract world
  eof : world.standard.progress.eof = some true
  below : world.confirmed < world.standard.progress.requestedBytes
  certain : world.uncertain = 0

section Read

variable {cap : Nat} {output : List UInt8}

theorem readChunk_gives (chunks : contract.moved = ChunksMoved maxStreamChunkBytes) (reads : contract.reads = true)
    (reading : Reading contract cap output world) :
    Gives environment (readChunk cap output : Operation F C _) world (fun _ => Spent contract)
      (PassLeaves (Reading contract cap) fun _ => ReadWhole contract) := by
  obtain ⟨ready, confirmed, short, admitted, requested⟩ := reading
  refine .step (admitChunk_gives (fun _ => ready.spent) _) fun _ => ?_
  refine .step (expectHost_gives ready.present _) fun _ => ?_
  refine .step (ask_gives _) fun answer => ?_
  obtain ⟨report, bytes⟩ := answer
  refine .step (useHost_gives _) fun _ => ?_
  refine .step (noteEof_gives report) fun _ => ?_
  -- The use and the end of the input are noted before the report is settled.
  have noted := ready.withEof reads report
  have progress : (withEof report world).standard.progress.admittedBytes = cap + 1 ∧
      (withEof report world).standard.progress.requestedBytes = cap + 1 ∧
      (withEof report world).confirmed = output.length := by
    unfold withEof World.confirmed
    split <;> exact ⟨admitted, requested, confirmed⟩
  refine (settleChunk_gives noted ?_ ?_ (by exact fun possible => possible)).bind ?_
  · rw [progress.1, progress.2.2]
    exact Nat.min_le_left _ _
  · intro _ uncertain within
    rw [chunks]
    show uncertain ≤ maxStreamChunkBytes
    omega
  · rintro count after ⟨settled, within, next, _, counts⟩
    have read : after.confirmed = output.length + count.getD 0 := by
      rw [World.confirmed, counts]
      exact congrArg (· + count.getD 0) progress.2.2
    have asked : after.standard.progress.admittedBytes = cap + 1 ∧
        after.standard.progress.requestedBytes = cap + 1 := by
      rw [counts]
      exact ⟨progress.1, progress.2.1⟩
    cases count with
    | none => exact .pure ⟨next, read, short, asked.1, asked.2⟩
    | some count =>
      dsimp only
      split
      · next zero =>
        subst zero
        refine .step (spend_gives next.spent) fun _ => ?_
        refine .pure ⟨next.spent, ?_, ?_, next.certain⟩
        · rw [counts]
          have report := settled.exact 0 rfl
          subst report
          rfl
        · rw [read, asked.2]
          show output.length + 0 < cap + 1
          omega
      · split
        · exact fail_gives next.spent
        · next room =>
          refine .pure ⟨next, ?_, ?_, asked.1, asked.2⟩
          · rw [read, length_append, length_map, length_range]
            rfl
          · rw [length_append, length_map, length_range]
            omega

theorem readAll_gives (chunks : contract.moved = ChunksMoved maxStreamChunkBytes) (reads : contract.reads = true)
    (reading : Reading contract cap [] world) :
    Gives environment (readAll cap : Operation F C _) world (fun _ => Spent contract)
      fun _ => ReadWhole contract := by
  exact .repeatFrom (fun _ _ _ => trivial) (fun _ _ held => readChunk_gives chunks reads held) environment.passes reading

end Read

/-! ## Writes -/

/-- The bytes that a use handed over for certain. -/
def HostUse.delivered : HostUse → List UInt8
  | write _ chunk report => chunk.take (reported report).1
  | _ => []

/-- Every use since the start wrote to the stream, and together they handed over `sent`. -/
def Delivered (start : World) (stream : StandardStream) (sent : List UInt8) (world : World) : Prop :=
  ∃ uses, world.uses = start.uses ++ uses ∧ (∀ use ∈ uses, ∃ chunk report, use = .write stream chunk report) ∧
    uses.flatMap HostUse.delivered = sent

theorem Delivered.next {start later : World} {stream : StandardStream} {sent chunk : List UInt8}
    {report : Except TransferError Nat} (delivered : Delivered start stream sent world)
    (uses : later.uses = world.uses ++ [.write stream chunk report]) :
    Delivered start stream (sent ++ chunk.take (reported report).1) later := by
  obtain ⟨earlier, before, writes, together⟩ := delivered
  refine ⟨earlier ++ [.write stream chunk report], ?_, ?_, ?_⟩
  · rw [uses, before, append_assoc]
  · intro use member
    rcases mem_append.mp member with early | last
    · exact writes use early
    · exact ⟨chunk, report, mem_singleton.mp last⟩
  · rw [flatMap_append, together, flatMap_singleton]
    rfl

/-- Between two segments of a write. -/
structure Sent (contract : Contract) (stream : StandardStream) (total : Nat) (sent : List UInt8) (world : World) : Prop where
  ready : Ready contract world
  confirmed : world.confirmed = sent.length
  admitted : world.standard.progress.admittedBytes = total
  requested : world.standard.progress.requestedBytes = total
  delivered : Delivered contract.start stream sent world

section Write

variable {stream : StandardStream} {total : Nat} {sent segment : List UInt8} {offset : Nat}

/-- A chunk of a segment continues what was sent of it. -/
theorem take_chunk (segment : List UInt8) (offset : Nat) {count : Nat}
    (within : count ≤ ((segment.drop offset).take maxStreamChunkBytes).length) :
    segment.take offset ++ ((segment.drop offset).take maxStreamChunkBytes).take count = segment.take (offset + count) := by
  rw [length_take] at within
  rw [take_take, Nat.min_eq_left (by omega), take_add]

section

variable (chunks : contract.moved = ChunksMoved maxStreamChunkBytes) (fits : sent.length + segment.length ≤ total)
include chunks fits

theorem writeChunk_gives
    (writing : offset ≤ segment.length ∧ Sent contract stream total (sent ++ segment.take offset) world) :
    Gives environment (writeChunk stream segment offset : Operation F C _) world (fun _ => Spent contract)
      (PassLeaves (fun offset after => offset ≤ segment.length ∧
        Sent contract stream total (sent ++ segment.take offset) after)
        fun _ => Sent contract stream total (sent ++ segment)) := by
  obtain ⟨inside, ready, confirmed, admitted, requested, delivered⟩ := writing
  rw [length_append, length_take, Nat.min_eq_left inside] at confirmed
  unfold writeChunk
  split
  · next more =>
    have size : ((segment.drop offset).take maxStreamChunkBytes).length ≤ segment.length - offset ∧
        ((segment.drop offset).take maxStreamChunkBytes).length ≤ maxStreamChunkBytes := by
      rw [length_take, length_drop]
      omega
    refine .step (admitChunk_gives (fun _ => ready.spent) _) fun _ => ?_
    refine .step (expectHost_gives ready.present _) fun _ => ?_
    refine .step (ask_gives _) fun report => ?_
    refine .step (useHost_gives _) fun _ => ?_
    refine (settleChunk_gives ready ?_ ?_ (by exact fun possible => possible)).bind ?_
    · omega
    · intro _ uncertain within
      rw [chunks]
      show uncertain ≤ maxStreamChunkBytes
      omega
    · rintro count after ⟨settled, within, next, uses, counts⟩
      have handed := delivered.next uses
      rw [settled.moved, append_assoc, take_chunk segment offset within] at handed
      have sentNow : Sent contract stream total (sent ++ segment.take (offset + count.getD 0)) after := by
        refine ⟨next, ?_, ?_, ?_, handed⟩
        · rw [World.confirmed, counts, length_append, length_take, Nat.min_eq_left (by omega), ← Nat.add_assoc]
          exact congrArg (· + count.getD 0) confirmed
        · rw [counts]
          exact admitted
        · rw [counts]
          exact requested
      cases count with
      | none => exact .pure ⟨inside, sentNow⟩
      | some count =>
        dsimp only
        split
        · exact fail_gives next.spent
        · refine .pure ⟨?_, sentNow⟩
          have counted : count ≤ ((segment.drop offset).take maxStreamChunkBytes).length := within
          omega
  · next whole =>
    have all : segment.take offset = segment := take_of_length_le (Nat.le_of_not_lt whole)
    rw [all] at delivered
    refine .pure ⟨ready, ?_, admitted, requested, delivered⟩
    rw [confirmed, length_append]
    omega

theorem writeSegment_gives (before : Sent contract stream total sent world) :
    Gives environment (writeSegment stream segment : Operation F C Unit) world (fun _ => Spent contract)
      fun _ => Sent contract stream total (sent ++ segment) := by
  have start : 0 ≤ segment.length ∧ Sent contract stream total (sent ++ segment.take 0) world := by
    rw [take_zero, append_nil]
    exact ⟨Nat.zero_le _, before⟩
  exact .repeatFrom (fun _ _ _ => trivial) (fun _ _ held => writeChunk_gives chunks fits held) environment.passes start

end

end Write

end Opaal.Operational
