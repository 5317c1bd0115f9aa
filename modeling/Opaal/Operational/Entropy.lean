import Opaal.Operational.Accounting

/-!
# What entropy is charged for

A fill is charged before it starts and settled by what its report proves; a random call is a sequence
of fills within what was admitted.
-/

namespace Opaal.Operational

open Opaal.Machine List
open Opaal.Number (Binary64)
open Opaal.Runtime
open RandomCall (parse)

variable {F C : Type} {environment : Environment F C} {world : World} {contract : Contract}

/-! ## One fill -/

/-- The state while a fill is under way. -/
def filling (length : Nat) (report : Except FillError Unit) (world : World) : World where
  standard := { world.standard with
    consumedBytes := world.standard.consumedBytes + length
    progress := { world.standard.progress with uncertainBytesUpperBound := length } }
  uses := world.uses ++ [.fill length report]

/-- The state when a fill is settled. -/
def filled (length : Nat) (report : Except FillError Unit) (world : World) : World :=
  { filling length report world with
    standard := settleFill length (fillProgress report) (filling length report world).standard }

section Fill

variable {length : Nat} {report : Except FillError Unit}

section

variable (ready : Ready contract world)
include ready

theorem Ready.filled_uses (length : Nat) (report : Except FillError Unit) :
    ∃ used, (filled length report world).uses = contract.start.uses ++ used ∧ ∀ use ∈ used, use.Fair := by
  obtain ⟨used, uses, fair⟩ := ready.uses
  refine ⟨used ++ [.fill length report], ?_, ?_⟩
  · show world.uses ++ _ = _
    rw [uses, append_assoc]
  · intro use member
    rcases mem_append.mp member with early | last
    · exact fair use early
    · rw [mem_singleton.mp last]
      trivial

theorem Ready.filled_history (length : Nat) (report : Except FillError Unit) :
    HostHistory contract.start (filled length report world) := by
  obtain ⟨used, uses, fair⟩ := ready.filled_uses length report
  refine .live used uses ?_ fair ?_
  · rw [ready.opened, ← ready.present]
    cases progress : fillProgress report <;> simp [filled, settleFill, filling, progress]
  · intro absent
    rw [ready.opened] at absent
    cases absent

/-- Whatever the report proves, the fill stays within what was admitted. -/
theorem Ready.filled_charged (report : Except FillError Unit)
    (fits : length ≤ world.standard.progress.admittedBytes - world.confirmed)
    (started : contract.moved world.confirmed length) (confirmed : contract.moved (world.confirmed + length) 0) :
    Charged contract (filled length report world) := by
  obtain ⟨⟨limits, roles, consumed, within, asked, room, shape, eof⟩, certain, _, covered, admitted, reserved, _, _⟩ := ready
  simp only [World.confirmed, World.uncertain] at *
  cases progress : fillProgress report with
  | notStarted =>
    rw [certain] at shape consumed
    refine ⟨?_, ?_, ?_, ?_, ?_, ?_, ?_, ?_⟩ <;>
      simp [filled, settleFill, filling, progress, World.confirmed, World.uncertain]
    · exact limits
    · exact roles
    · exact consumed
    · omega
    · exact asked
    · exact room
    · exact shape
    · exact eof
  | uncertain =>
    refine ⟨?_, ?_, ?_, ?_, ?_, ?_, ?_, ?_⟩ <;>
      simp [filled, settleFill, filling, progress, World.confirmed, World.uncertain]
    · exact limits
    · exact roles
    · omega
    · omega
    · exact asked
    · omega
    · exact started
    · exact eof
  | confirmed =>
    refine ⟨?_, ?_, ?_, ?_, ?_, ?_, ?_, ?_⟩ <;>
      simp [filled, settleFill, filling, progress, World.confirmed, World.uncertain]
    · exact limits
    · exact roles
    · omega
    · omega
    · exact asked
    · omega
    · exact confirmed
    · exact eof

/-- A fill that returned leaves the host ready for the next. -/
theorem Ready.filled_ok (fits : length ≤ world.standard.progress.admittedBytes - world.confirmed)
    (started : contract.moved world.confirmed length) (confirmed : contract.moved (world.confirmed + length) 0) :
    Ready contract (filled length (.ok ()) world) := by
  have covered := ready.covered
  refine ⟨ready.filled_charged (.ok ()) fits started confirmed, rfl, ready.present, ?_, ready.admitted, ready.reserved,
    ready.opened, ready.filled_uses length (.ok ())⟩
  simp only [World.confirmed] at fits covered
  simp only [filled, settleFill, filling, fillProgress, World.confirmed]
  omega

theorem fill_gives (started : contract.moved world.confirmed length)
    (confirmed : contract.moved (world.confirmed + length) 0) :
    Gives environment (fill length) world (fun _ => Spent contract) fun bytes after =>
      Ready contract after ∧ after.confirmed = world.confirmed + length ∧ bytes.length = length := by
  have spent := ready.spent
  refine Yields.step (poll_gives fun _ => spent) fun _ => ?_
  refine standard_step ?_
  split
  · exact fail_gives spent
  · next room =>
    have fits : length ≤ world.standard.progress.admittedBytes - world.confirmed := Nat.le_of_not_lt room
    refine Yields.step (spend_gives spent) fun _ => ?_
    refine Yields.step (spend_gives spent) fun _ => ?_
    refine Yields.step (spend_gives spent) fun _ => ?_
    refine Yields.step (update_gives _) fun _ => ?_
    refine Yields.step (expectHost_gives (by exact ready.present) _) fun _ => ?_
    refine Yields.step (ask_gives _) fun answer => ?_
    obtain ⟨report, _⟩ := answer
    refine Yields.step (useHost_gives _) fun _ => ?_
    refine Yields.step (update_gives _) fun _ => ?_
    -- The world is now the one in which the fill is settled.
    have charged := ready.filled_charged report fits started confirmed
    have history := ready.filled_history length report
    cases report with
    | ok =>
      have settled := ready.filled_ok fits started confirmed
      refine Yields.step (Yields.pure rfl) fun _ => ?_
      refine Yields.step (poll_gives fun _ => ⟨charged, history⟩) fun _ => ?_
      exact Yields.pure ⟨settled, rfl, by simp⟩
    | error error =>
      have kept : ∀ cleanup : Option OperationalError, Spent contract
          { filled length (.error error) world with
            standard := { (filled length (.error error) world).standard with cleanupError := cleanup } } := by
        intro cleanup
        exact Spent.cleanup ⟨charged, history⟩ cleanup
      refine (Yields.step (ask_gives _) fun redact => keepCleanupError_gives _).bind ?_
      rintro _ _ ⟨cleanup, rfl⟩
      refine Yields.step (poll_gives fun _ => kept cleanup) fun _ => ?_
      dsimp only
      split
      · exact fail_gives (kept cleanup)
      · exact adapterError_gives (fun _ => kept cleanup) _

end

end Fill

/-! ## Draws -/

/-- The counts that whole words leave. -/
def WordsMoved (confirmed uncertain : Nat) : Prop := 8 ∣ confirmed ∧ (uncertain = 0 ∨ uncertain = 8)

theorem wordsMoved_next {confirmed : Nat} (words : WordsMoved confirmed 0) :
    WordsMoved confirmed 8 ∧ WordsMoved (confirmed + 8) 0 :=
  ⟨⟨words.1, .inr rfl⟩, Nat.dvd_add words.1 (Nat.dvd_refl 8), .inl rfl⟩

/-- The counts that fills of a buffer leave. -/
def ChunksMoved (size : Nat) (_confirmed uncertain : Nat) : Prop := uncertain ≤ size

theorem Ready.moved (ready : Ready contract world) : contract.moved world.confirmed 0 := by
  have shape := ready.charged.shape
  rw [ready.certain] at shape
  exact shape

theorem fill_word (words : contract.moved = WordsMoved) (ready : Ready contract world) :
    Gives environment (fill 8) world (fun _ => Spent contract) fun bytes after =>
      Ready contract after ∧ bytes.length = 8 := by
  have moved := ready.moved
  rw [words] at moved
  obtain ⟨started, confirmed⟩ := wordsMoved_next moved
  rw [← words] at started confirmed
  exact (fill_gives ready started confirmed).mono (fun _ _ held => ⟨held.1, held.2.2⟩) fun _ _ held => held

theorem drawInteger_gives (words : contract.moved = WordsMoved) {min : Int64} {width : Nat} (positive : 0 < width)
    (inside : ∀ offset : Nat, offset < width → min.toInt + offset < 2 ^ 63) (candidates : Nat)
    (ready : Ready contract world) :
    Gives environment (drawInteger min width candidates) world (fun _ => Spent contract) fun _ => Spent contract := by
  induction candidates generalizing world with
  | zero => exact fail_gives ready.spent
  | succ candidates ih =>
    refine .step (poll_gives fun _ => ready.spent) fun _ => ?_
    refine .step (spend_gives ready.spent) fun _ => ?_
    refine (fill_word words ready).bind ?_
    rintro word after ⟨next, _⟩
    split
    · have below := inside (bigEndian word % width) (Nat.mod_lt _ positive)
      have above := min.le_toInt
      have fits : tryInt64 (min.toInt + (bigEndian word % width : Nat)) =
          some (.ofInt (min.toInt + (bigEndian word % width : Nat))) := by
        unfold tryInt64
        rw [if_pos ⟨by omega, below⟩]
      rw [fits]
      exact .pure next.spent
    · exact ih next

theorem foldl_bigEndian_lt (bytes : List UInt8) (value bound : Nat) (below : value < bound) :
    bytes.foldl (fun value byte => value * 256 + byte.toNat) value < bound * 256 ^ bytes.length := by
  induction bytes generalizing value bound with
  | nil => simpa using below
  | cons byte bytes ih =>
    have digit := byte.toNat_lt
    have next : value * 256 + byte.toNat < bound * 256 := by omega
    have onward := ih (value * 256 + byte.toNat) (bound * 256) next
    rw [foldl_cons, length_cons, Nat.pow_succ, Nat.mul_comm (256 ^ bytes.length), ← Nat.mul_assoc]
    exact onward

theorem unitFloat_finite {fraction : Nat} (below : fraction < 2 ^ 53) : (unitFloat fraction).isFinite = true := by
  unfold unitFloat
  split
  · decide
  · next nonzero =>
    have exponent : fraction.log2 < 53 := (Nat.log2_lt nonzero).mpr below
    have upper : fraction < 2 ^ (fraction.log2 + 1) := Nat.lt_log2_self
    have short : fraction * 2 ^ (52 - fraction.log2) - 2 ^ 52 < 2 ^ 52 := by
      have scaled : fraction * 2 ^ (52 - fraction.log2) < 2 ^ (fraction.log2 + 1) * 2 ^ (52 - fraction.log2) :=
        Nat.mul_lt_mul_of_pos_right upper (Nat.two_pow_pos _)
      rw [← Nat.pow_add, show fraction.log2 + 1 + (52 - fraction.log2) = 53 by omega] at scaled
      omega
    have reads := Binary64.ofFields_reads false (show 970 + fraction.log2 < 2 ^ 11 by omega) short
    unfold Binary64.isFinite
    rw [reads.1]
    simp only [ne_eq, decide_not, Bool.not_eq_eq_eq_not, Bool.not_true, decide_eq_false_iff_not]
    omega

theorem drawFloat_gives (words : contract.moved = WordsMoved) (ready : Ready contract world) :
    Gives environment (drawFloat : Operation F C _) world (fun _ => Spent contract) fun _ => Spent contract := by
  refine (fill_word words ready).bind ?_
  rintro word after ⟨next, eight⟩
  have below : bigEndian word < 2 ^ 64 := by
    have bounded := foldl_bigEndian_lt word 0 1 Nat.zero_lt_one
    rw [eight] at bounded
    simpa [bigEndian] using bounded
  have finite := unitFloat_finite (show bigEndian word / 2 ^ 11 < 2 ^ 53 by omega)
  obtain ⟨float, isFloat⟩ : ∃ float, FiniteFloat.new (unitFloat (bigEndian word / 2 ^ 11)) = .ok float := by
    unfold FiniteFloat.new
    rw [dif_pos finite]
    split <;> exact ⟨_, rfl⟩
  rw [isFloat]
  exact Yields.pure next.spent

theorem drawChunks_gives (chunks : contract.moved = ChunksMoved maxEntropyFillBytes) {lengths : List Nat}
    (small : ∀ length ∈ lengths, length ≤ maxEntropyFillBytes) (ready : Ready contract world) :
    Gives environment (drawChunks lengths : Operation F C _) world (fun _ => Spent contract)
      fun _ => Ready contract := by
  induction lengths generalizing world with
  | nil => exact .pure ready
  | cons length _ ih =>
    have started : contract.moved world.confirmed length := by
      rw [chunks]
      exact small length mem_cons_self
    have confirmed : contract.moved (world.confirmed + length) 0 := by
      rw [chunks]
      exact Nat.zero_le _
    refine (fill_gives ready started confirmed).bind ?_
    rintro chunk after ⟨next, _, _⟩
    refine (ih (fun other member => small other (mem_cons_of_mem _ member)) next).bind ?_
    intro rest last held
    exact .pure held

theorem chunkLengths_le {length size : Nat} (positive : 0 < size) : ∀ chunk ∈ chunkLengths length size, chunk ≤ size := by
  intro chunk member
  rcases mem_append.mp member with full | last
  · exact Nat.le_of_eq (eq_of_mem_replicate full)
  · split at last
    · cases last
    · rw [mem_singleton.mp last]
      exact Nat.le_of_lt (Nat.mod_lt _ positive)

/-! ## Random calls -/

def RandomCall.moved : RandomCall → Nat → Nat → Prop
  | .int _ _ | .float => WordsMoved
  | .bytes _ => ChunksMoved maxEntropyFillBytes

/-- A call whose arguments are refused asks for nothing. -/
def randomContract (operation : String) (arguments : List (Value F C)) (start : World) : Contract :=
  match parse operation arguments start.standard.limits.maxCallBytes with
  | .ok call => ⟨start, call.requestedBytes start.standard.limits.maxIntegerCandidates, call.moved, false⟩
  | .error _ => ⟨start, 0, fun _ _ => True, false⟩

theorem RandomCall.moved_nothing (call : RandomCall) : call.moved 0 0 := by
  cases call with
  | int | float => exact ⟨Nat.dvd_zero 8, .inl rfl⟩
  | bytes => exact Nat.zero_le _

/-- The state of a call that has moved nothing yet. -/
def begun (start : World) (progress : HostProgress) : World :=
  { start with standard := { start.standard with progress } }

/-- Nothing moved is within every contract. -/
theorem spent_begun (room : contract.start.standard.consumedBytes ≤ contract.start.standard.limits.maxHostBytes)
    (nothing : contract.moved 0 0) : Spent contract (begun contract.start {}) where
  charged := ⟨rfl, rfl, rfl, Nat.zero_le _, Nat.zero_le _, room, nothing, .inl rfl⟩
  history := .live [] (append_nil _).symm rfl (fun _ member => by cases member) fun _ => rfl

/-- What an admission promises. -/
structure Admitted (contract : Contract) (progress : HostProgress) : Prop where
  requested : progress.requestedBytes = contract.requested
  admitted : progress.admittedBytes ≤ contract.requested
  reserved : contract.start.standard.consumedBytes + progress.admittedBytes ≤ contract.start.standard.limits.maxHostBytes
  nothing : progress.confirmedBytes = 0 ∧ progress.uncertainBytesUpperBound = 0 ∧ progress.eof = none
  present : contract.start.standard.host = true

theorem Admitted.ready {progress : HostProgress} (admitted : Admitted contract progress)
    (nothing : contract.moved 0 0) : Ready contract (begun contract.start progress) := by
  obtain ⟨requested, atMost, reserved, ⟨noneConfirmed, noneUncertain, noEof⟩, present⟩ := admitted
  have confirmed : (begun contract.start progress).confirmed = 0 := noneConfirmed
  have uncertain : (begun contract.start progress).uncertain = 0 := noneUncertain
  refine ⟨⟨rfl, rfl, ?_, ?_, Nat.le_of_eq requested, ?_, ?_, .inl noEof⟩, uncertain, present, ?_, ?_, reserved, present,
    [], (append_nil _).symm, fun _ member => by cases member⟩
  · rw [confirmed, uncertain]
    rfl
  · rw [confirmed, uncertain]
    exact Nat.zero_le _
  · exact Nat.le_of_add_right_le reserved
  · rw [confirmed, uncertain]
    exact nothing
  · rw [confirmed]
    exact Nat.zero_le _
  · show progress.admittedBytes ≤ progress.requestedBytes
    rw [requested]
    exact atMost

theorem RandomCall.admittedBytes_le {call : RandomCall} {requested remaining admitted : Nat}
    (isAdmitted : call.admittedBytes requested remaining = some admitted) :
    admitted ≤ requested ∧ admitted ≤ remaining := by
  unfold RandomCall.admittedBytes at isAdmitted
  split at isAdmitted
  · split at isAdmitted
    · cases isAdmitted
      omega
    · split at isAdmitted
      · cases isAdmitted
        omega
      · cases isAdmitted
  · split at isAdmitted
    · cases isAdmitted
      omega
    · cases isAdmitted

section Random

variable {operation : String} {arguments : List (Value F C)} {start : World} {call : RandomCall}

theorem randomContract_ok (parsed : parse operation arguments start.standard.limits.maxCallBytes = .ok call) :
    randomContract operation arguments start =
      ⟨start, call.requestedBytes start.standard.limits.maxIntegerCandidates, call.moved, false⟩ := by
  unfold randomContract
  rw [parsed]

theorem randomContract_start : (randomContract operation arguments start).start = start := by
  unfold randomContract
  split <;> rfl

theorem randomContract_nothing : (randomContract operation arguments start).moved 0 0 := by
  unfold randomContract
  split
  · exact RandomCall.moved_nothing _
  · trivial

theorem admission_gives (room : start.standard.consumedBytes ≤ start.standard.limits.maxHostBytes)
    {failed : ModuleError → World → Prop} (refused : ∀ error, failed error (begun start {})) :
    Gives environment (admission operation arguments) (begun start {}) failed fun progress after =>
      after = begun start {} ∧ Admitted (randomContract operation arguments start) progress ∧
        ∃ call, parse operation arguments start.standard.limits.maxCallBytes = .ok call := by
  refine .step (poll_gives fun _ => refused _) fun _ => ?_
  refine standard_step ?_
  have first : Gives environment (finish (parse operation arguments start.standard.limits.maxCallBytes))
      (begun start {}) failed fun call after => after = begun start {} ∧
        parse operation arguments start.standard.limits.maxCallBytes = .ok call :=
    finish_gives (fun call parsed => ⟨rfl, parsed⟩) fun error _ => refused error
  refine first.bind ?_
  rintro call _ ⟨rfl, parsed⟩
  refine .step (authorize_gives refused) fun _ => ?_
  refine (bound_gives refused _).bind ?_
  rintro _ _ ⟨rfl, present⟩
  dsimp only
  split
  · exact fail_gives (refused _)
  · next admitted isAdmitted =>
    split
    · exact fail_gives (refused _)
    · obtain ⟨atMost, fits⟩ := RandomCall.admittedBytes_le isAdmitted
      refine .pure ⟨rfl, ?_, call, parsed⟩
      rw [randomContract_ok parsed]
      refine ⟨rfl, atMost, ?_, ⟨rfl, rfl, rfl⟩, present⟩
      have left : admitted ≤ start.standard.limits.maxHostBytes - start.standard.consumedBytes := fits
      show start.standard.consumedBytes + admitted ≤ start.standard.limits.maxHostBytes
      omega

/-- The samples of an interval of 64-bit integers are such integers. -/
theorem parse_int {min : Int64} {width : Nat} {cap : Nat}
    (parsed : parse operation arguments cap = .ok (.int min width)) :
    0 < width ∧ ∀ offset : Nat, offset < width → min.toInt + offset < 2 ^ 63 := by
  unfold parse at parsed
  split at parsed
  · next low high =>
    split at parsed
    · cases parsed
    · next nonempty =>
      cases parsed
      have less : min.toInt < high.toInt := Int64.lt_iff_toInt_lt.mp (Int64.not_le.mp nonempty)
      have top := high.toInt_lt
      refine ⟨by omega, ?_⟩
      intro offset below
      omega
  · cases parsed
  · split at parsed
    · cases parsed
    · split at parsed <;> cases parsed
  · cases parsed

theorem draw_gives (parsed : parse operation arguments start.standard.limits.maxCallBytes = .ok call)
    (candidates : Nat) (ready : Ready (randomContract operation arguments start) world) :
    Gives environment (draw call candidates) world (fun _ => Spent (randomContract operation arguments start))
      fun _ => Spent (randomContract operation arguments start) := by
  have moved : (randomContract operation arguments start).moved = call.moved := by
    rw [randomContract_ok parsed]
  cases call with
  | int min width =>
    obtain ⟨positive, inside⟩ := parse_int parsed
    show Gives environment (if width = 1 then pure (.int min) else drawInteger min width candidates) world _ _
    split
    · exact .pure ready.spent
    · exact drawInteger_gives moved positive inside candidates ready
  | float => exact drawFloat_gives moved ready
  | bytes =>
    refine (drawChunks_gives moved (chunkLengths_le (by decide)) ready).bind ?_
    intro bytes after next
    exact .pure next.spent

theorem retain_gives {failed : ModuleError → World → Prop} (refused : failed limit world) (call : RandomCall) :
    Gives environment (retain call) world failed fun _ after => after = world := by
  cases call with
  | bytes => exact spend_gives refused
  | int | float => exact .pure rfl

theorem invokeCall_gives (room : start.standard.consumedBytes ≤ start.standard.limits.maxHostBytes) :
    Gives environment (invokeCall operation arguments) start (fun _ => Spent (randomContract operation arguments start))
      fun _ => Spent (randomContract operation arguments start) := by
  have nothing : Spent (randomContract operation arguments start) (begun start {}) := by
    have begin_ := @spent_begun (randomContract operation arguments start) (by rw [randomContract_start]; exact room)
      randomContract_nothing
    rw [randomContract_start] at begin_
    exact begin_
  refine .step (update_gives _) fun _ => ?_
  refine (admission_gives room fun _ => nothing).bind ?_
  rintro progress _ ⟨rfl, admitted, call, parsed⟩
  refine .step (update_gives _) fun _ => ?_
  have ready := admitted.ready randomContract_nothing
  rw [randomContract_start] at ready
  refine standard_step ?_
  have again : finish (parse operation arguments start.standard.limits.maxCallBytes) =
      (pure call : Operation F C RandomCall) := by
    rw [parsed]
    rfl
  show Gives environment (finish (parse operation arguments start.standard.limits.maxCallBytes) >>= _)
    (begun start progress) _ _
  rw [again, pure_bind]
  refine .step (poll_gives fun _ => ready.spent) fun _ => ?_
  refine .step (spend_gives ready.spent) fun _ => ?_
  refine .step (retain_gives ready.spent _) fun _ => ?_
  exact draw_gives parsed _ ready

end Random

end Opaal.Operational
