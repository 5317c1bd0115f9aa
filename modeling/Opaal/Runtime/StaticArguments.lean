import Opaal.Runtime.CommandArguments

/-!
# What static argument checking may report

A fault on source arguments should stand whatever their unknown words and spreads turn out to be.
It does where the fault was found before anything that can shift the reading of later words.
-/

namespace Opaal.Runtime.Command

open List

/-- Arguments with every unknown word replaced by a word and every spread by some words. -/
inductive Concretizes : List CommandArgumentInput → List CommandArgumentInput → Prop where
  | nil : Concretizes [] []
  | word {inputs outputs} (bytes : Word) (rest : Concretizes inputs outputs) :
      Concretizes (.word (some bytes) :: inputs) (.word (some bytes) :: outputs)
  | closure {inputs outputs} (rest : Concretizes inputs outputs) :
      Concretizes (.closure :: inputs) (.closure :: outputs)
  | unknown {inputs outputs} (bytes : Word) (rest : Concretizes inputs outputs) :
      Concretizes (.word none :: inputs) (.word (some bytes) :: outputs)
  | spread {inputs outputs} (words : List Word) (rest : Concretizes inputs outputs) :
      Concretizes (.dynamicTail :: inputs) (words.map (fun bytes => .word (some bytes)) ++ outputs)

theorem Concretizes.length_eq {inputs outputs : List CommandArgumentInput} (concrete : Concretizes inputs outputs)
    (noSpread : .dynamicTail ∉ inputs) : outputs.length = inputs.length := by
  induction concrete with
  | nil => rfl
  | spread => simp at noSpread
  | word _ _ ih | unknown _ _ ih => simpa using ih (by simpa using noSpread)
  | closure _ ih => simpa using ih (by simpa using noSpread)

namespace CommandArgumentSchema

variable (schema : CommandArgumentSchema)

/-! ## Faults stay -/

@[simp] theorem fault_ne_nil (state : ScanState) (index : Nat) (kind : CommandArgumentFaultKind) :
    (state.fault index kind).faults ≠ [] := by
  simp [ScanState.fault]

/-- What a step adds to a pass: faults and definite positionals at its own index. -/
structure Adds (before after : ScanState) (index : Nat) : Prop where
  faults : ∃ more, after.faults = before.faults ++ more ∧ ∀ fault ∈ more, fault.argumentIndex = some index
  positionals : ∃ more, after.definitePositionalIndices = before.definitePositionalIndices ++ more ∧
    ∀ place ∈ more, place = index

theorem Adds.refl (state : ScanState) (index : Nat) : Adds state state index :=
  ⟨⟨[], by simp⟩, ⟨[], by simp⟩⟩

variable {index values : Nat} {state concrete : ScanState} {inputs outputs : List CommandArgumentInput}
  {fault : CommandArgumentFault} {option : CommandOptionSchema}

theorem Adds.trans {before middle after : ScanState} (first : Adds before middle index) (second : Adds middle after index) : Adds before after index := by
  obtain ⟨⟨faults, hasFaults, ownFaults⟩, ⟨places, hasPlaces, ownPlaces⟩⟩ := first
  obtain ⟨⟨faults', hasFaults', ownFaults'⟩, ⟨places', hasPlaces', ownPlaces'⟩⟩ := second
  refine ⟨⟨faults ++ faults', by rw [hasFaults', hasFaults, append_assoc], ?_⟩,
    ⟨places ++ places', by rw [hasPlaces', hasPlaces, append_assoc], ?_⟩⟩
  · intro fault found
    rcases mem_append.mp found with found | found
    · exact ownFaults fault found
    · exact ownFaults' fault found
  · intro place found
    rcases mem_append.mp found with found | found
    · exact ownPlaces place found
    · exact ownPlaces' place found

theorem adds_fault (state : ScanState) (index : Nat) (kind : CommandArgumentFaultKind) :
    Adds state (state.fault index kind) index :=
  ⟨⟨[⟨some index, kind⟩], rfl, by simp⟩, ⟨[], by simp [ScanState.fault], by simp⟩⟩

theorem adds_readPositional (state : ScanState) (index : Nat) (actual : CommandArgumentKind) :
    Adds state (schema.readPositional state index actual) index := by
  simp only [readPositional]
  split
  · exact ⟨⟨_, rfl, by simp⟩, ⟨[index], rfl, by simp⟩⟩
  · exact ⟨⟨[], by simp, by simp⟩, ⟨[index], rfl, by simp⟩⟩

theorem adds_enterOption (state : ScanState) (index : Nat) (option : CommandOptionSchema) :
    Adds state (schema.enterOption state index option) index := by
  have first : Adds state (schema.afterPositionalCheck state index option) index := by
    unfold afterPositionalCheck
    split
    · exact adds_fault _ _ _
    · exact .refl _ _
  have second (state : ScanState) : Adds state (repeatedCheck state index option) index := by
    unfold repeatedCheck
    split
    · exact adds_fault _ _ _
    · exact .refl _ _
  have third (state : ScanState) : Adds state (conflictCheck state index option) index := by
    unfold conflictCheck
    split
    · exact adds_fault _ _ _
    · exact .refl _ _
  have checks := (first.trans (second _)).trans (third _)
  exact ⟨checks.faults, checks.positionals⟩

theorem adds_readOption (state : ScanState) (index available : Nat) (name : String) :
    Adds state (schema.readOption state index available name).state index := by
  unfold readOption
  split
  · exact adds_fault _ _ _
  · next option _ =>
    have entered := schema.adds_enterOption state index option
    split
    · exact entered.trans (adds_fault _ _ _)
    · exact entered

theorem adds_read (state : ScanState) (index available : Nat) (input : CommandArgumentInput) :
    Adds state (schema.read state index available input).state index := by
  unfold read
  split
  · split
    · exact adds_fault _ _ _
    · exact ⟨⟨[], by simp [Reading.state], by simp⟩, ⟨[], by simp [Reading.state], by simp⟩⟩
  · split
    · exact ⟨⟨[], by simp [Reading.state], by simp⟩, ⟨[], by simp [Reading.state], by simp⟩⟩
    · split
      · exact schema.adds_readOption state index available _
      · exact schema.adds_readPositional state index .word
  · split
    · exact ⟨⟨[], by simp [Reading.state], by simp⟩, ⟨[], by simp [Reading.state], by simp⟩⟩
    · exact schema.adds_readPositional state index .word
  · exact schema.adds_readPositional state index .closure

/-- A pass from an index on only adds faults and definite positionals from there on. -/
theorem scan_adds (values index : Nat) (state : ScanState) (inputs : List CommandArgumentInput) :
    (∃ more, (schema.scan values index state inputs).faults = state.faults ++ more ∧
      ∀ fault ∈ more, ∃ place, fault.argumentIndex = some place ∧ index ≤ place) ∧
    ∃ more, (schema.scan values index state inputs).definitePositionalIndices = state.definitePositionalIndices ++ more ∧
      ∀ place ∈ more, index ≤ place := by
  induction inputs generalizing values index state with
  | nil => exact ⟨⟨[], by simp [scan], by simp⟩, ⟨[], by simp [scan], by simp⟩⟩
  | cons input rest ih =>
    have later (values : Nat) (after : ScanState) := ih values (index + 1) after
    cases values with
    | succ values =>
      obtain ⟨⟨faults, hasFaults, places⟩, ⟨indices, hasIndices, after⟩⟩ := later values state
      refine ⟨⟨faults, hasFaults, fun fault found => ?_⟩, ⟨indices, hasIndices, fun place found => ?_⟩⟩
      · obtain ⟨place, isPlace, behind⟩ := places fault found
        exact ⟨place, isPlace, by omega⟩
      · have behind := after place found
        omega
    | zero =>
      rw [scan]
      obtain ⟨⟨own, hasOwn, ownPlace⟩, ⟨ownIndices, hasOwnIndices, ownIndex⟩⟩ := schema.adds_read state index rest.length input
      cases reading : schema.read state index rest.length input with
      | stop =>
        rw [reading] at hasOwn hasOwnIndices
        refine ⟨⟨own, hasOwn, fun fault found => ⟨index, ownPlace fault found, le_refl _⟩⟩,
          ⟨ownIndices, hasOwnIndices, fun place found => (ownIndex place found).ge⟩⟩
      | next after values =>
        rw [reading] at hasOwn hasOwnIndices
        simp only [Reading.state] at hasOwn hasOwnIndices
        obtain ⟨⟨faults, hasFaults, places⟩, ⟨indices, hasIndices, behind⟩⟩ := later values after
        refine ⟨⟨own ++ faults, by simp only [hasFaults, hasOwn, append_assoc], fun fault found => ?_⟩,
          ⟨ownIndices ++ indices, by simp [hasIndices, hasOwnIndices], fun place found => ?_⟩⟩
        · rcases mem_append.mp found with found | found
          · exact ⟨index, ownPlace fault found, le_refl _⟩
          · obtain ⟨place, isPlace, behindIndex⟩ := places fault found
            exact ⟨place, isPlace, by omega⟩
        · rcases mem_append.mp found with found | found
          · exact (ownIndex place found).ge
          · have behindIndex := behind place found
            omega

/-- Neither a terminator nor the values of an option can change how later words are read. -/
def steady : Bool := schema.terminator = .literal && schema.options.all (·.valueArity == 0)

/-- A concrete pass found all that an abstract one did; until something unknown, they agree. -/
structure Covers (abstract concrete : ScanState) : Prop where
  faults : abstract.faults ≠ [] → concrete.faults ≠ []
  active : abstract.optionsActive = concrete.optionsActive
  started : abstract.positionalStarted = true → concrete.positionalStarted = true
  definite : abstract.definitePositionals ≤ concrete.definitePositionals
  seen : ∀ name ∈ abstract.seen, name ∈ concrete.seen
  certain : abstract.uncertainOptionClassification = false →
    abstract.definitePositionals = concrete.definitePositionals ∧
      abstract.possiblePositionals = concrete.possiblePositionals
  known : concrete.uncertainOptionClassification = false ∧ concrete.unboundedPositionals = false

theorem Covers.refl (known : state.uncertainOptionClassification = false ∧ state.unboundedPositionals = false) :
    Covers state state :=
  ⟨id, rfl, id, le_refl _, fun _ found => found, fun _ => ⟨rfl, rfl⟩, known⟩

variable {schema} {abstract concrete : ScanState}

section

variable (covers : Covers abstract concrete)
include covers

variable (index index' : Nat) (kind : CommandArgumentFaultKind) (option : CommandOptionSchema)

theorem Covers.fault_right :
    Covers abstract (concrete.fault index kind) :=
  ⟨fun _ => fault_ne_nil _ _ _, covers.active, covers.started, covers.definite, covers.seen, covers.certain, covers.known⟩

theorem Covers.fault_both (kind' : CommandArgumentFaultKind) :
    Covers (abstract.fault index kind) (concrete.fault index' kind') :=
  ⟨fun _ => fault_ne_nil _ _ _, covers.active, covers.started, covers.definite, covers.seen, covers.certain, covers.known⟩

theorem Covers.finish (faulty : schema.finish abstract ≠ []) :
    schema.finish concrete ≠ [] := by
  by_cases raised : abstract.faults = []
  · have exceeded : schema.tooFew concrete = true ∨ schema.tooMany concrete = true := by
      by_contra fits
      obtain ⟨notFew, notMany⟩ := not_or.mp fits
      refine faulty ?_
      have few : schema.tooFew abstract = false := by
        by_contra few
        simp only [tooFew, Bool.not_eq_false, Bool.and_eq_true, Bool.not_eq_true', decide_eq_true_eq] at few
        have agree := covers.certain few.1.2
        refine notFew ?_
        simp [tooFew, covers.known.1, covers.known.2, ← agree.2, few.2]
      have many : schema.tooMany abstract = false := by
        by_contra many
        refine notMany ?_
        have more := covers.definite
        unfold tooMany at many ⊢
        cases maximum : schema.maximum with
        | none => simp [maximum] at many
        | some bound =>
          simp only [maximum, Option.any_some, Bool.not_eq_false, decide_eq_true_eq] at many ⊢
          omega
      simp [CommandArgumentSchema.finish, raised, arityFault, few, many]
    rcases exceeded with few | many
    · simp [CommandArgumentSchema.finish, arityFault, few]
    · simp [CommandArgumentSchema.finish, arityFault, many]
  · simp [CommandArgumentSchema.finish, covers.faults raised]

theorem Covers.readPositional (actual : CommandArgumentKind) :
    Covers (schema.readPositional abstract index actual) (schema.readPositional concrete index' actual) := by
  have grown : Covers
      { abstract with
        positionalStarted := true
        definitePositionalIndices := abstract.definitePositionalIndices ++ [index]
        possiblePositionals := abstract.possiblePositionals + 1 }
      { concrete with
        positionalStarted := true
        definitePositionalIndices := concrete.definitePositionalIndices ++ [index']
        possiblePositionals := concrete.possiblePositionals + 1 } := {
    faults := covers.faults
    active := covers.active
    started := fun _ => rfl
    definite := by simpa [ScanState.definitePositionals] using covers.definite
    seen := covers.seen
    certain := fun certain => by simpa [ScanState.definitePositionals] using covers.certain certain
    known := covers.known }
  simp only [CommandArgumentSchema.readPositional]
  by_cases certain : abstract.uncertainOptionClassification = false
  · rw [certain, covers.known.1] at grown
    rw [(covers.certain certain).1, certain, covers.known.1]
    split
    · exact grown.fault_both _ _ _ _
    · exact grown
  · rw [if_neg (by simp [certain])]
    split
    · exact grown.fault_right _ _
    · exact grown

/-- What is read in the place of something unknown leaves the abstract pass behind. -/
theorem Covers.extra_readPositional (uncertain : abstract.uncertainOptionClassification = true) (index : Nat)
    (actual : CommandArgumentKind) : Covers abstract (schema.readPositional concrete index actual) := by
  have grown : Covers abstract
      { concrete with
        positionalStarted := true
        definitePositionalIndices := concrete.definitePositionalIndices ++ [index]
        possiblePositionals := concrete.possiblePositionals + 1 } := {
    faults := covers.faults
    active := covers.active
    started := fun _ => rfl
    definite := by
      have fewer := covers.definite
      simp only [ScanState.definitePositionals, length_append] at fewer ⊢
      omega
    seen := covers.seen
    certain := fun certain => by simp [uncertain] at certain
    known := covers.known }
  simp only [CommandArgumentSchema.readPositional]
  split
  · exact grown.fault_right _ _
  · exact grown

theorem Covers.enterOption :
    Covers (schema.enterOption abstract index option) (schema.enterOption concrete index' option) := by
  have first : Covers (schema.afterPositionalCheck abstract index option) (schema.afterPositionalCheck concrete index' option) := by
    simp only [afterPositionalCheck, Bool.and_eq_true]
    by_cases late : schema.optionsBeforePositionals = true ∧ abstract.positionalStarted = true
    · rw [if_pos late, if_pos ⟨late.1, covers.started late.2⟩]
      exact covers.fault_both _ _ _ _
    · rw [if_neg late]
      split
      · exact covers.fault_right _ _
      · exact covers
  have second {abstract concrete : ScanState} (covers : Covers abstract concrete) :
      Covers (repeatedCheck abstract index option) (repeatedCheck concrete index' option) := by
    simp only [repeatedCheck, Bool.and_eq_true, contains_iff_mem]
    by_cases again : (!option.repeatable) = true ∧ option.name ∈ abstract.seen
    · rw [if_pos again, if_pos ⟨again.1, covers.seen _ again.2⟩]
      exact covers.fault_both _ _ _ _
    · rw [if_neg again]
      split
      · exact covers.fault_right _ _
      · exact covers
  have third {abstract concrete : ScanState} (covers : Covers abstract concrete) :
      Covers (conflictCheck abstract index option) (conflictCheck concrete index' option) := by
    unfold conflictCheck
    cases conflict : option.conflicts.find? abstract.seen.contains with
    | none =>
      change Covers abstract _
      split
      · exact covers.fault_right _ _
      · exact covers
    | some name =>
      have both : (option.conflicts.find? concrete.seen.contains).isSome = true := by
        rw [List.find?_isSome]
        have inSeen : name ∈ abstract.seen := by simpa using List.find?_some conflict
        exact ⟨name, mem_of_find?_eq_some conflict, by simpa using covers.seen name inSeen⟩
      obtain ⟨_, found⟩ := Option.isSome_iff_exists.mp both
      rw [found]
      exact covers.fault_both _ _ _ _
  have checks := third (second first)
  refine ⟨checks.faults, checks.active, checks.started, checks.definite, fun name found => ?_, checks.certain, checks.known⟩
  rcases mem_cons.mp found with rfl | found
  · exact mem_cons_self
  · exact mem_cons_of_mem _ (checks.seen name found)

theorem Covers.extra_enterOption :
    Covers abstract (schema.enterOption concrete index option) := by
  have first : Covers abstract (schema.afterPositionalCheck concrete index option) := by
    unfold afterPositionalCheck
    split
    · exact covers.fault_right _ _
    · exact covers
  have second {concrete : ScanState} (covers : Covers abstract concrete) : Covers abstract (repeatedCheck concrete index option) := by
    unfold repeatedCheck
    split
    · exact covers.fault_right _ _
    · exact covers
  have third {concrete : ScanState} (covers : Covers abstract concrete) : Covers abstract (conflictCheck concrete index option) := by
    unfold conflictCheck
    split
    · exact covers.fault_right _ _
    · exact covers
  have checks := third (second first)
  exact ⟨checks.faults, checks.active, checks.started, checks.definite,
    fun name found => mem_cons_of_mem _ (checks.seen name found), checks.certain, checks.known⟩

end

/-- Under a steady schema an option takes no values. -/
theorem steady_option (steady : schema.steady = true) {name : String} (found : schema.option name = some option) : option.valueArity = 0 := by
  simp only [CommandArgumentSchema.steady, Bool.and_eq_true, all_eq_true, beq_iff_eq] at steady
  exact steady.2 option (mem_of_find?_eq_some found)

theorem steady_literal (steady : schema.steady = true) : schema.terminator = .literal := by
  simp only [CommandArgumentSchema.steady, Bool.and_eq_true, decide_eq_true_eq] at steady
  exact steady.1

@[simp] theorem readPositional_optionsActive (state : ScanState) (index : Nat) (actual : CommandArgumentKind) :
    (schema.readPositional state index actual).optionsActive = state.optionsActive := by
  simp only [CommandArgumentSchema.readPositional]
  split <;> rfl

/-- A known word is read alike where the reading is fixed, and it stays fixed. -/
theorem Covers.read_word (covers : Covers abstract concrete) (fixed : schema.steady = true ∨ abstract.optionsActive = false)
    (index index' available available' : Nat) (bytes : Word) :
    ∃ abstract' concrete', schema.read abstract index available (.word (some bytes)) = .next abstract' 0 ∧
      schema.read concrete index' available' (.word (some bytes)) = .next concrete' 0 ∧
      Covers abstract' concrete' ∧ (schema.steady = true ∨ abstract'.optionsActive = false) := by
  have notTerminator : ¬(concrete.optionsActive && decide (schema.terminator = .accepted) && decide (bytes = terminatorWord)) = true := by
    rcases fixed with steady | inactive
    · simp [steady_literal steady]
    · simp [← covers.active, inactive]
  simp only [CommandArgumentSchema.read, covers.active, if_neg notTerminator]
  split
  · next asOption =>
    have steady : schema.steady = true := by
      rcases fixed with steady | inactive
      · exact steady
      · simp [← covers.active, inactive] at asOption
    unfold readOption
    split
    · exact ⟨_, _, rfl, rfl, covers.fault_both _ _ _ _, .inl steady⟩
    · next option found =>
      simp only [steady_option steady found, Nat.not_lt_zero, if_false]
      exact ⟨_, _, rfl, rfl, covers.enterOption _ _ _, .inl steady⟩
  · refine ⟨_, _, rfl, rfl, covers.readPositional _ _ _, ?_⟩
    simpa using fixed

/-- Any word in the place of an unknown one leaves the abstract pass behind. -/
theorem Covers.extra_read (covers : Covers abstract concrete) (fixed : schema.steady = true ∨ abstract.optionsActive = false)
    (uncertain : abstract.uncertainOptionClassification = true) (index available : Nat) (bytes : Word) :
    ∃ concrete', schema.read concrete index available (.word (some bytes)) = .next concrete' 0 ∧ Covers abstract concrete' := by
  have notTerminator : ¬(concrete.optionsActive && decide (schema.terminator = .accepted) && decide (bytes = terminatorWord)) = true := by
    rcases fixed with steady | inactive
    · simp [steady_literal steady]
    · simp [← covers.active, inactive]
  simp only [CommandArgumentSchema.read, if_neg notTerminator]
  split
  · next asOption =>
    have steady : schema.steady = true := by
      rcases fixed with steady | inactive
      · exact steady
      · simp [← covers.active, inactive] at asOption
    unfold readOption
    split
    · exact ⟨_, rfl, covers.fault_right _ _⟩
    · next option found =>
      simp only [steady_option steady found, Nat.not_lt_zero, if_false]
      exact ⟨_, rfl, covers.extra_enterOption _ _⟩
  · exact ⟨_, rfl, covers.extra_readPositional uncertain _ _⟩

/-- Some words in the place of a spread. -/
theorem Covers.extra_scan (words : List Word) (covers : Covers abstract concrete)
    (fixed : schema.steady = true ∨ abstract.optionsActive = false)
    (uncertain : abstract.uncertainOptionClassification = true) (index : Nat) (outputs : List CommandArgumentInput) :
    ∃ concrete' index', schema.scan 0 index concrete (words.map (fun bytes => .word (some bytes)) ++ outputs) =
      schema.scan 0 index' concrete' outputs ∧ Covers abstract concrete' := by
  induction words generalizing concrete index with
  | nil => exact ⟨concrete, index, rfl, covers⟩
  | cons bytes words ih =>
    obtain ⟨_, reads, covers⟩ := covers.extra_read fixed uncertain index
      (words.map (fun bytes => CommandArgumentInput.word (some bytes)) ++ outputs).length bytes
    obtain ⟨concrete', index', scans, covers⟩ := ih covers (index + 1)
    refine ⟨concrete', index', ?_, covers⟩
    simp only [map_cons, cons_append, scan, reads]
    exact scans

/-- Where the reading is fixed, a fault stands for every concrete list of arguments. -/
theorem Covers.scan (instantiates : Concretizes inputs outputs)
    (deferred : schema.dynamicTail = .deferredToRuntime ∨ .dynamicTail ∉ inputs) {abstract : ScanState}
    (covers : Covers abstract concrete) (fixed : schema.steady = true ∨ abstract.optionsActive = false) (index index' : Nat)
    (faulty : schema.finish (schema.scan 0 index abstract inputs) ≠ []) :
    schema.finish (schema.scan 0 index' concrete outputs) ≠ [] := by
  induction instantiates generalizing abstract concrete index index' with
  | nil => exact covers.finish faulty
  | @word inputs outputs bytes _ ih =>
    have deferredRest := deferred.imp_right fun none found => none (mem_cons_of_mem _ found)
    obtain ⟨_, concrete', reads, reads', covers, fixed⟩ :=
      covers.read_word fixed index index' inputs.length outputs.length bytes
    simp only [CommandArgumentSchema.scan, reads, reads'] at faulty ⊢
    exact ih deferredRest covers fixed _ _ faulty
  | closure _ ih =>
    have deferredRest := deferred.imp_right fun none found => none (mem_cons_of_mem _ found)
    exact ih deferredRest (covers.readPositional _ _ _) (by simpa using fixed) _ _ faulty
  | @unknown _ outputs bytes _ ih =>
    have deferredRest := deferred.imp_right fun none found => none (mem_cons_of_mem _ found)
    by_cases active : abstract.optionsActive = true
    · have behind : Covers
          { abstract with
            possiblePositionals := abstract.possiblePositionals + 1
            uncertainOptionClassification := true } concrete :=
        ⟨covers.faults, covers.active, covers.started, covers.definite, covers.seen, by simp, covers.known⟩
      obtain ⟨concrete', reads', covers⟩ := behind.extra_read fixed rfl index' outputs.length bytes
      simp only [CommandArgumentSchema.scan, reads']
      rw [CommandArgumentSchema.scan, CommandArgumentSchema.read, if_pos active] at faulty
      exact ih deferredRest covers (by simpa using fixed) _ _ faulty
    · have inactive : abstract.optionsActive = false := by simpa using active
      have inactive' : concrete.optionsActive = false := covers.active ▸ inactive
      simp only [CommandArgumentSchema.scan, CommandArgumentSchema.read, inactive, inactive', Bool.false_and,
        Bool.false_eq_true, if_false] at faulty ⊢
      exact ih deferredRest (covers.readPositional _ _ _) (by simpa using fixed) _ _ faulty
  | @spread _ outputs words _ ih =>
    have isDeferred : schema.dynamicTail ≠ .rejected := by
      rcases deferred with isDeferred | none
      · simp [isDeferred]
      · simp at none
    have behind : Covers
        { abstract with
          unboundedPositionals := true
          uncertainOptionClassification := true } concrete :=
      ⟨covers.faults, covers.active, covers.started, covers.definite, covers.seen, by simp, covers.known⟩
    obtain ⟨_, _, scans, covers⟩ := behind.extra_scan words fixed rfl index' outputs
    simp only [CommandArgumentSchema.scan, CommandArgumentSchema.read, if_neg isDeferred] at faulty
    rw [scans]
    have deferredRest := deferred.imp_right fun none found => none (mem_cons_of_mem _ found)
    exact ih deferredRest covers (by simpa using fixed) _ _ faulty

/-! ## Before anything unknown -/

/-- What a pass keeps while it reads options and known words. -/
structure Reads (before after : ScanState) : Prop where
  active : after.optionsActive = before.optionsActive
  uncertain : after.uncertainOptionClassification = before.uncertainOptionClassification
  unbounded : after.unboundedPositionals = before.unboundedPositionals

theorem reads_readPositional (schema : CommandArgumentSchema) (state : ScanState) (index : Nat) (actual : CommandArgumentKind) :
    Reads state (schema.readPositional state index actual) := by
  simp only [CommandArgumentSchema.readPositional]
  split <;> exact ⟨rfl, rfl, rfl⟩

theorem reads_enterOption (schema : CommandArgumentSchema) (state : ScanState) (index : Nat) (option : CommandOptionSchema) :
    Reads state (schema.enterOption state index option) := by
  simp only [CommandArgumentSchema.enterOption, afterPositionalCheck, repeatedCheck, conflictCheck]
  split <;> split <;> split <;> exact ⟨rfl, rfl, rfl⟩

/-- A word read for an option that the schema knows. -/
theorem scan_known_option (active : state.optionsActive = true) {bytes : Word}
    (terminates : ¬(decide (schema.terminator = .accepted) && decide (bytes = terminatorWord)) = true)
    (asOption : (terminatorWord.isPrefixOf bytes && !(decide (schema.terminator = .literal) && decide (bytes = terminatorWord))) = true)
    (lookup : schema.option (fromUtf8Lossy bytes) = some option) (index : Nat) (rest : List CommandArgumentInput) :
    schema.scan 0 index state (.word (some bytes) :: rest) =
      if rest.length < option.valueArity then
        (schema.enterOption state index option).fault index (.missingOptionValues option.name option.valueArity rest.length)
      else schema.scan option.valueArity (index + 1) (schema.enterOption state index option) rest := by
  simp only [scan, read, active, Bool.true_and, if_neg terminates, if_pos asOption, readOption, lookup]
  by_cases short : rest.length < option.valueArity
  · simp [if_pos short]
  · simp [if_neg short]

theorem scan_unknown_option (active : state.optionsActive = true) {bytes : Word}
    (terminates : ¬(decide (schema.terminator = .accepted) && decide (bytes = terminatorWord)) = true)
    (asOption : (terminatorWord.isPrefixOf bytes && !(decide (schema.terminator = .literal) && decide (bytes = terminatorWord))) = true)
    (lookup : schema.option (fromUtf8Lossy bytes) = none) (index : Nat) (rest : List CommandArgumentInput) :
    schema.scan 0 index state (.word (some bytes) :: rest) =
      schema.scan 0 (index + 1) (state.fault index (.unknownOption (fromUtf8Lossy bytes))) rest := by
  simp only [scan, read, active, Bool.true_and, if_neg terminates, if_pos asOption, readOption, lookup]

end CommandArgumentSchema

end Opaal.Runtime.Command
