import Mathlib.Data.Int.CardIntervalMod
import Opaal.Operational.Entropy

/-!
# Uniform random integers

The words that are not dropped go round the interval a whole number of times, so that each of its values
has equally many.  A call draws one word for each candidate, for no more than it was admitted.
-/

namespace Opaal.Operational

open Opaal.Machine List
open Opaal.Runtime (Value)

variable {F C : Type}

/-! ## Words -/

section Words

variable {width total residue word : Nat} {min max value : Int64}

/-- From the threshold on, each residue has as many words as there are whole rounds. -/
theorem count_accepted (below : residue < width) :
    total.count (fun word => total % width ≤ word ∧ word % width = residue) = total / width := by
  have positive : 0 < width := Nat.zero_lt_of_lt below
  have dropped : total % width < width := Nat.mod_lt total positive
  obtain ⟨rest, isRest⟩ : ∃ rest, total = total % width + rest := ⟨_, (Nat.add_sub_of_le (Nat.mod_le _ _)).symm⟩
  have all := Nat.count_modEq_card total positive residue
  have low := Nat.count_modEq_card (total % width) positive residue
  rw [Nat.div_eq_of_lt dropped, Nat.mod_mod] at low
  have none : (total % width).count (fun word => total % width ≤ word ∧ word % width = residue) = 0 :=
    Nat.count_iff_forall_not.mpr fun word less accepted => Nat.not_le_of_lt less accepted.1
  have same : ∀ offset, (total % width ≤ total % width + offset ∧ (total % width + offset) % width = residue) ↔
      total % width + offset ≡ residue [MOD width] := by
    intro offset
    rw [Nat.ModEq, Nat.mod_eq_of_lt below]
    simp
  have parts (p : Nat → Prop) [DecidablePred p] :
      total.count p = (total % width).count p + rest.count fun offset => p (total % width + offset) := by
    rw [← Nat.count_add, ← isRest]
  rw [parts] at all
  rw [parts, none]
  simp only [same]
  omega

/-- What a candidate gives: nothing when it is dropped. -/
def sample (min : Int64) (width word : Nat) : Option Int64 :=
  if 2 ^ 64 % width ≤ word then tryInt64 (min.toInt + (word % width : Nat)) else none

/-- The width of an interval. -/
def widthOf (min max : Int64) : Nat := (max.toInt - min.toInt).toNat

section

variable (inside : ∀ offset : Nat, offset < width → min.toInt + offset < 2 ^ 63) (positive : 0 < width)
include inside positive

theorem sample_accepted (accepted : 2 ^ 64 % width ≤ word) :
    sample min width word = some (.ofInt (min.toInt + (word % width : Nat))) := by
  have below := inside (word % width) (Nat.mod_lt _ positive)
  have above := min.le_toInt
  rw [sample, if_pos accepted, tryInt64, if_pos ⟨by omega, below⟩]

theorem toInt_sampled :
    (Int64.ofInt (min.toInt + (word % width : Nat))).toInt = min.toInt + (word % width : Nat) := by
  have below := inside (word % width) (Nat.mod_lt _ positive)
  have above := min.le_toInt
  exact Int64.toInt_ofInt_of_le (by omega) below

/-- A value is the sample of the accepted words of its residue. -/
theorem sample_eq_iff :
    sample min width word = some value ↔
      2 ^ 64 % width ≤ word ∧ min.toInt + (word % width : Nat) = value.toInt := by
  by_cases accepted : 2 ^ 64 % width ≤ word
  · rw [sample_accepted inside positive accepted, Option.some_inj, ← Int64.toInt_inj, toInt_sampled inside positive]
    exact (and_iff_right accepted).symm
  · refine iff_of_false ?_ fun both => accepted both.1
    rw [sample, if_neg accepted]
    exact nofun

end

theorem widthOf_interval (less : min < max) :
    0 < widthOf min max ∧ (min.toInt + widthOf min max = max.toInt) ∧ widthOf min max < 2 ^ 64 ∧
      ∀ offset : Nat, offset < widthOf min max → min.toInt + offset < 2 ^ 63 := by
  have below := Int64.lt_iff_toInt_lt.mp less
  have top := max.toInt_lt
  have bottom := min.le_toInt
  unfold widthOf
  exact ⟨by omega, by omega, by omega, fun offset small => by omega⟩

/-- Every value of the interval has the same number of words, and no other value has one. -/
theorem count_sample (less : min < max) (value : Int64) :
    (2 ^ 64).count (fun word => sample min (widthOf min max) word = some value) =
      if min ≤ value ∧ value < max then 2 ^ 64 / widthOf min max else 0 := by
  obtain ⟨positive, ends_, _, inside⟩ := widthOf_interval less
  simp only [sample_eq_iff inside positive, Int64.le_iff_toInt_le, Int64.lt_iff_toInt_lt]
  split
  · next within =>
    obtain ⟨residue, isResidue⟩ := Int.eq_ofNat_of_zero_le (Int.sub_nonneg.mpr within.1)
    have below : residue < widthOf min max := by omega
    rw [← count_accepted below]
    congr 1
    funext word
    rw [eq_iff_iff]
    omega
  · next outside =>
    refine Nat.count_iff_forall_not.mpr fun word _ accepted => outside ?_
    have := Nat.mod_lt word positive
    omega

theorem bigEndian_append (bytes : List UInt8) (byte : UInt8) : bigEndian (bytes ++ [byte]) = bigEndian bytes * 256 + byte.toNat := by
  rw [bigEndian, foldl_append]
  rfl

/-- A word is one list of bytes. -/
theorem bigEndian_bijective (length : Nat) : ∀ word < 256 ^ length, ∃! bytes : List UInt8, bytes.length = length ∧ bigEndian bytes = word := by
  induction length with
  | zero =>
    intro word below
    refine ⟨[], ⟨rfl, (Nat.lt_one_iff.mp below).symm⟩, fun bytes other => length_eq_zero_iff.mp other.1⟩
  | succ length ih =>
    intro word below
    obtain ⟨front, ⟨isLength, isWord⟩, only⟩ := ih (word / 256) (by rw [Nat.pow_succ] at below; exact Nat.div_lt_of_lt_mul (by omega))
    refine ⟨front ++ [UInt8.ofNat word], ⟨by rw [length_append, isLength]; rfl, ?_⟩, ?_⟩
    · rw [bigEndian_append, isWord, UInt8.toNat_ofNat']
      omega
    · rintro bytes ⟨long, reads⟩
      rcases eq_nil_or_concat bytes with rfl | ⟨front', byte, rfl⟩
      · cases long
      · rw [concat_eq_append, bigEndian_append] at reads
        have digit := byte.toNat_lt
        rw [length_concat, Nat.succ.injEq] at long
        rw [concat_eq_append, only front' ⟨long, by omega⟩]
        congr
        apply UInt8.toNat_inj.mp
        rw [UInt8.toNat_ofNat']
        omega

end Words

/-! ## Calls -/

/-- A call ends with a value or with an error. -/
def Ends (failed : ModuleError → World → Prop) : Stop → World → Prop
  | .failed error, world => failed error world
  | .panicked _, _ | .unfinished, _ => False

/-- Nothing ends a call but its limits. -/
structure Undisturbed (environment : Environment F C) (start : World) : Prop where
  poll : ∀ time, environment.poll time = none
  verdict : ∀ time, (environment.verdict time).isExecutable = true
  available : ∀ time, environment.available time = true
  same : ∀ time, environment.sameEvaluation time = true
  fill : ∀ time, (environment.fill time).1 = .ok ()
  host : start.standard.host = true

/-- The word that the host draws at a time. -/
def Environment.word (environment : Environment F C) (time : Nat) : Nat :=
  bigEndian ((List.range 8).map (environment.fill time).2)

/-- One candidate, and what is done when it is dropped. -/
def drawCandidate (min : Int64) (width : Nat) (dropped : Operation F C (Value F C)) : Operation F C (Value F C) := do
  poll
  charge
  let word ← fill 8
  match sample min width (bigEndian word) with
  | some value => return .int value
  | none => dropped

/-- The bytes that a use asks for. -/
def HostUse.drawn : HostUse → Nat
  | fill length _ => length
  | _ => 0

/-- At most so many bytes were drawn since. -/
def Drew (start : World) (most : Nat) (world : World) : Prop :=
  ∃ used, world.uses = start.uses ++ used ∧ (used.map HostUse.drawn).sum ≤ most

/-- What a call is admitted for. -/
def admittedTo (start : World) (call : RandomCall) : Nat :=
  (call.admittedBytes (call.requestedBytes start.standard.limits.maxIntegerCandidates)
    (start.standard.limits.maxHostBytes - start.standard.consumedBytes)).getD 0

/-- The bytes of the candidates that are admitted. -/
def drawLimit (start : World) (call : RandomCall) : Nat :=
  8 * Nat.min start.standard.limits.maxIntegerCandidates (admittedTo start call / 8)

/-- A failure after at most so many bytes, for the limits when nothing else ends the call. -/
def Fails (environment : Environment F C) (start : World) (most : Nat) (error : ModuleError) (world : World) : Prop :=
  Drew start most world ∧ (Undisturbed environment start → error = limit)

/-- So many words were drawn, and the host is there for the next. -/
structure Drawing (admitted : Nat) (start : World) (words : Nat) (world : World) : Prop where
  present : world.standard.host = true
  reserved : world.standard.progress.admittedBytes = admitted
  confirmed : world.confirmed = 8 * words
  covered : 8 * words ≤ admitted
  drew : Drew start (8 * words) world

section Calls

variable {α : Type} {environment : Environment F C} {start world : World} {stops : Stop → World → Prop}
  {admitted words total most candidates width : Nat} {min max : Int64}

theorem ask_answers (answer : Environment F C → Nat → α) :
    Leaves environment (ask answer) world stops fun value after => (∃ time, value = answer environment time) ∧ after = world := by
  rintro state rfl
  exact ⟨⟨state.clock, rfl⟩, rfl⟩

theorem Drew.mono {fewer : Nat} (drew : Drew start fewer world) (fits : fewer ≤ most) : Drew start most world := by
  obtain ⟨used, uses, sum⟩ := drew
  exact ⟨used, uses, sum.trans fits⟩

theorem Drew.fill {length : Nat} (drew : Drew start most world) (report : Except FillError Unit) :
    Drew start (most + length) (filled length report world) := by
  obtain ⟨used, uses, sum⟩ := drew
  refine ⟨used ++ [.fill length report], ?_, ?_⟩
  · show world.uses ++ _ = _
    rw [uses, append_assoc]
  · rw [map_append, sum_append]
    exact Nat.add_le_add_right sum length

theorem words_le (covered : 8 * words ≤ admitted) (fits : words ≤ total) : 8 * words ≤ 8 * Nat.min total (admitted / 8) :=
  Nat.mul_le_mul_left 8 (Nat.le_min.mpr ⟨fits, by omega⟩)

theorem Drawing.within (drawing : Drawing admitted start words world) (fits : words ≤ total) :
    Drew start (8 * Nat.min total (admitted / 8)) world :=
  drawing.drew.mono (words_le drawing.covered fits)

theorem Drawing.fill (drawing : Drawing admitted start words world)
    (fits : ¬ world.standard.progress.admittedBytes - world.standard.progress.confirmedBytes < 8) :
    Drawing admitted start (words + 1) (filled 8 (.ok ()) world) := by
  have confirmed : world.standard.progress.confirmedBytes = 8 * words := drawing.confirmed
  refine ⟨drawing.present, drawing.reserved, ?_, ?_, drawing.drew.fill _⟩
  · show world.standard.progress.confirmedBytes + 8 = _
    omega
  · rw [drawing.reserved] at fits
    omega

theorem poll_undisturbed (drew : Drew start most world) :
    Leaves environment poll world (Ends (Fails environment start most)) fun _ after => after = world := by
  refine (ask_answers _).bind ?_
  rintro reason _ ⟨⟨time, isReason⟩, rfl⟩
  cases reason with
  | none => exact .pure rfl
  | some reason =>
    refine fail_gives ⟨drew, fun undisturbed => ?_⟩
    rw [undisturbed.poll] at isReason
    cases isReason

theorem authorize_undisturbed (drew : Drew start most world) :
    Leaves environment authorize world (Ends (Fails environment start most)) fun _ after => after = world := by
  refine .step (poll_undisturbed drew) fun _ => ?_
  refine (ask_answers _).bind ?_
  rintro _ _ ⟨⟨time, rfl⟩, rfl⟩
  split
  · exact .pure rfl
  · next refused => exact fail_gives ⟨drew, fun undisturbed => absurd (undisturbed.verdict time) refused⟩

theorem bound_undisturbed (drew : Drew start most world) (kept : world.standard.host = start.standard.host) (stale : String) :
    Leaves environment (bound stale) world (Ends (Fails environment start most)) fun _ after =>
      after = world ∧ world.standard.host = true := by
  refine standard_step ?_
  refine (ask_answers _).bind ?_
  rintro _ _ ⟨⟨time, rfl⟩, rfl⟩
  split
  · next absent =>
    refine fail_gives ⟨drew, fun undisturbed => ?_⟩
    simp [kept, undisturbed.host, undisturbed.available] at absent
  · next present =>
    rw [Bool.not_eq_true, Bool.not_eq_false', Bool.and_eq_true] at present
    refine (ask_answers _).bind ?_
    rintro _ _ ⟨⟨time', rfl⟩, rfl⟩
    split
    · exact .pure ⟨rfl, present.1⟩
    · next other => exact fail_gives ⟨drew, fun undisturbed => absurd (undisturbed.same time') other⟩

theorem fill_draws (drawing : Drawing admitted start words world) (room : words < total) :
    Leaves environment (fill 8) world (Ends (Fails environment start (8 * Nat.min total (admitted / 8)))) fun word after =>
      Drawing admitted start (words + 1) after ∧ ∃ time, bigEndian word = environment.word time := by
  have drew := drawing.within (Nat.le_of_lt room)
  have spent : Fails environment start (8 * Nat.min total (admitted / 8)) limit world := ⟨drew, fun _ => rfl⟩
  refine Yields.step (poll_undisturbed drew) fun _ => ?_
  refine standard_step ?_
  split
  · exact fail_gives spent
  next fits =>
  refine Yields.step (spend_gives spent) fun _ => ?_
  refine Yields.step (spend_gives spent) fun _ => ?_
  refine Yields.step (spend_gives spent) fun _ => ?_
  refine Yields.step (update_gives _) fun _ => ?_
  refine Yields.step (expectHost_gives (by exact drawing.present) _) fun _ => ?_
  refine (ask_answers _).bind ?_
  rintro ⟨report, bytes⟩ _ ⟨⟨time, asked⟩, rfl⟩
  refine Yields.step (useHost_gives _) fun _ => ?_
  refine Yields.step (update_gives _) fun _ => ?_
  show Leaves environment _ (filled 8 report world) _ _
  have settled := drawing.fill fits
  cases report with
  | ok =>
    refine Yields.step (Yields.pure rfl) fun _ => ?_
    refine Yields.step (poll_undisturbed (settled.within room)) fun _ => ?_
    refine Yields.pure ⟨settled, time, ?_⟩
    rw [Environment.word, ← asked]
  | error error =>
    have failing : ∀ error' (cleanup : Option OperationalError), Fails environment start (8 * Nat.min total (admitted / 8)) error'
        { filled 8 (.error error) world with
          standard := { (filled 8 (.error error) world).standard with cleanupError := cleanup } } := by
      refine fun _ _ => ⟨(drawing.drew.fill (.error error)).mono (words_le settled.covered room), fun undisturbed => ?_⟩
      have filled := undisturbed.fill time
      rw [← asked] at filled
      cases filled
    refine (Yields.step (ask_gives _) fun redact => keepCleanupError_gives _).bind ?_
    rintro _ _ ⟨cleanup, rfl⟩
    refine Yields.step (poll_gives fun _ => failing _ cleanup) fun _ => ?_
    dsimp only
    split
    · exact fail_gives (failing _ cleanup)
    · exact adapterError_gives (fun _ => failing _ cleanup) _

/-- A candidate is a word of the host, and what it gives is never out of range. -/
theorem drawInteger_succ (positive : 0 < width) (inside : ∀ offset : Nat, offset < width → min.toInt + offset < 2 ^ 63)
    (candidates : Nat) :
    drawInteger min width (candidates + 1) = drawCandidate min width (drawInteger min width candidates : Operation F C (Value F C)) := by
  rw [drawInteger, drawCandidate]
  congr 1
  funext _
  congr 1
  funext _
  congr 1
  funext word
  by_cases accepted : 2 ^ 64 % width ≤ bigEndian word
  · have sampled := sample_accepted inside positive accepted
    rw [if_pos accepted, sampled]
    rw [sample, if_pos accepted] at sampled
    rw [sampled]
    rfl
  · rw [if_neg accepted, sample, if_neg accepted]

/-- A call gives the sample of a word. -/
def Sampled (environment : Environment F C) (min : Int64) (width : Nat) (value : Value F C) : Prop :=
  ∃ time sampled, sample min width (environment.word time) = some sampled ∧ value = .int sampled

theorem drawInteger_draws (positive : 0 < width) (inside : ∀ offset : Nat, offset < width → min.toInt + offset < 2 ^ 63)
    (drawing : Drawing admitted start words world) (fits : words + candidates ≤ total) :
    Leaves environment (drawInteger min width candidates) world (Ends (Fails environment start (8 * Nat.min total (admitted / 8))))
      fun value after => Drew start (8 * Nat.min total (admitted / 8)) after ∧ Sampled environment min width value := by
  induction candidates generalizing world words with
  | zero => exact fail_gives ⟨drawing.within fits, fun _ => rfl⟩
  | succ candidates ih =>
    have drew := drawing.within (show words ≤ total by omega)
    rw [drawInteger_succ positive inside]
    refine .step (poll_undisturbed drew) fun _ => ?_
    refine .step (spend_gives ⟨drew, fun _ => rfl⟩) fun _ => ?_
    refine (fill_draws drawing (by omega)).bind ?_
    rintro word after ⟨next, time, isWord⟩
    split
    · next sampled =>
      refine .pure ⟨next.within (by omega), time, _, ?_, rfl⟩
      rw [← isWord]
      exact sampled
    · exact ih next (by omega)

/-- What an interval asks for. -/
abbrev intCall (min max : Int64) : RandomCall := .int min (widthOf min max)

theorem parse_interval (less : min < max) (cap : Nat) :
    RandomCall.parse "int" [(.int min : Value F C), .int max] cap = .ok (intCall min max) := by
  show (if max ≤ min then _ else _) = _
  rw [if_neg (Int64.not_le.mpr less)]
  rfl

theorem admission_draws (less : min < max) (drew : Drew start most world) (kept : world.standard.host = start.standard.host) :
    Leaves environment (admission "int" [.int min, .int max]) world (Ends (Fails environment start most)) fun progress after =>
      after = world ∧ progress.admittedBytes = admittedTo world (intCall min max) ∧ progress.confirmedBytes = 0 ∧
        world.standard.host = true := by
  refine Yields.step (poll_undisturbed drew) fun _ => ?_
  refine standard_step ?_
  rw [parse_interval less]
  show Leaves environment ((pure (intCall min max) : Operation F C RandomCall) >>= _) world _ _
  rw [pure_bind]
  refine Yields.step (authorize_undisturbed drew) fun _ => ?_
  refine (bound_undisturbed drew kept _).bind ?_
  rintro _ _ ⟨rfl, present⟩
  dsimp only
  split
  · exact fail_gives ⟨drew, fun _ => rfl⟩
  · next isAdmitted =>
    split
    · exact fail_gives ⟨drew, fun _ => rfl⟩
    · exact Yields.pure ⟨rfl, by rw [admittedTo, isAdmitted]; rfl, rfl, present⟩

theorem invokeCall_draws (less : min < max) :
    Leaves environment (invokeCall "int" [.int min, .int max]) start (Ends (Fails environment start (drawLimit start (intCall min max))))
      fun value after => Drew start (drawLimit start (intCall min max)) after ∧
        if widthOf min max = 1 then value = .int min else Sampled environment min (widthOf min max) value := by
  obtain ⟨positive, _, _, inside⟩ := widthOf_interval less
  have nothing (progress : HostProgress) : Drew start 0 (begun start progress) := ⟨[], (append_nil _).symm, Nat.le_refl 0⟩
  refine Yields.step (update_gives _) fun _ => ?_
  refine (admission_draws less ((nothing {}).mono (Nat.zero_le _)) rfl).bind ?_
  rintro progress _ ⟨rfl, isAdmitted, unmoved, present⟩
  refine Yields.step (update_gives _) fun _ => ?_
  show Leaves environment _ (begun start progress) _ _
  have drawing : Drawing (admittedTo start (intCall min max)) start 0 (begun start progress) :=
    ⟨present, isAdmitted, unmoved, Nat.zero_le _, nothing progress⟩
  have drew := drawing.within (Nat.zero_le start.standard.limits.maxIntegerCandidates)
  refine standard_step ?_
  rw [parse_interval less]
  show Leaves environment ((pure (intCall min max) : Operation F C RandomCall) >>= _) (begun start progress) _ _
  rw [pure_bind]
  refine Yields.step (poll_undisturbed drew) fun _ => ?_
  refine Yields.step (spend_gives ⟨drew, fun _ => rfl⟩) fun _ => ?_
  refine Yields.step (Yields.pure rfl) fun _ => ?_
  show Leaves environment (if widthOf min max = 1 then pure (.int min) else drawInteger min (widthOf min max) _) _ _ _
  split
  · exact Yields.pure ⟨drew, rfl⟩
  · exact drawInteger_draws positive inside drawing (Nat.le_of_eq (Nat.zero_add _))

theorem drawLimit_one (single : widthOf min max = 1) : drawLimit start (intCall min max) = 0 := by
  simp [drawLimit, admittedTo, RandomCall.requestedBytes, RandomCall.admittedBytes, single]

end Calls

/-- What a call for an integer from `min` to below `max` promises. -/
structure Uniform (min max : Int64) : Prop where
  words : ∀ word < 2 ^ 64, ∃! bytes : List UInt8, bytes.length = 8 ∧ bigEndian bytes = word
  accepted : ∀ word, (sample min (widthOf min max) word).isSome ↔ 2 ^ 64 % widthOf min max ≤ word
  each : ∀ value, (2 ^ 64).count (fun word => sample min (widthOf min max) word = some value) =
    if min ≤ value ∧ value < max then 2 ^ 64 / widthOf min max else 0
  some : 1 ≤ 2 ^ 64 / widthOf min max
  draws : ∀ (F C : Type) (candidates : Nat), drawInteger min (widthOf min max) (candidates + 1) =
    drawCandidate min (widthOf min max) (drawInteger min (widthOf min max) candidates : Operation F C (Value F C))
  single : widthOf min max = 1 → ∀ start, drawLimit start (intCall min max) = 0
  calls : ∀ (F C : Type) (environment : Environment F C) (start : World),
    Leaves environment (invokeCall "int" [.int min, .int max]) start (Ends (Fails environment start (drawLimit start (intCall min max))))
      fun value after => Drew start (drawLimit start (intCall min max)) after ∧
        if widthOf min max = 1 then value = .int min else Sampled environment min (widthOf min max) value
  rejects : ∀ (F C : Type) (environment : Environment F C) (state : Evaluation), Undisturbed environment state.world →
    widthOf min max ≠ 1 → (∀ time, sample min (widthOf min max) (environment.word time) = none) →
      ∃ after, invokeCall "int" [.int min, .int max] environment state = .error (.failed limit) after ∧
        Drew state.world (drawLimit state.world (intCall min max)) after.world

/-- Random integers are uniform, and a call draws no more candidates than it was admitted for. -/
theorem randomInteger_uniform {min max : Int64} (less : min < max) : Uniform min max := by
  obtain ⟨positive, _, wide, inside⟩ := widthOf_interval less
  constructor
  · exact bigEndian_bijective 8
  · intro word
    by_cases accepted : 2 ^ 64 % widthOf min max ≤ word
    · rw [sample_accepted inside positive accepted]
      exact iff_of_true rfl accepted
    · rw [sample, if_neg accepted]
      exact iff_of_false nofun accepted
  · exact count_sample less
  · exact (Nat.one_le_div_iff positive).mpr (Nat.le_of_lt wide)
  · exact fun F C => drawInteger_succ positive inside
  · exact fun one start => drawLimit_one one
  · exact fun F C environment start => invokeCall_draws less
  · intro F C environment state undisturbed wider dropped
    have ended := (invokeCall_draws less : Leaves environment _ _ _ _) state rfl
    cases ran : invokeCall "int" [.int min, .int max] environment state with
    | ok =>
      rw [ran] at ended
      obtain ⟨_, sampled⟩ := ended
      rw [if_neg wider] at sampled
      obtain ⟨time, _, isSampled, _⟩ := sampled
      rw [dropped time] at isSampled
      cases isSampled
    | error stop after =>
      rw [ran] at ended
      cases stop with
      | failed =>
        obtain ⟨drew, excused⟩ := ended
        rw [excused undisturbed]
        exact ⟨after, rfl, drew⟩
      | panicked | unfinished => cases ended

/-- The words below `2 ^ 64 % 3 = 1` are dropped: zero alone. -/
theorem dice_uniform : Uniform 1 4 := randomInteger_uniform (by decide)

end Opaal.Operational
