import Opaal.Runtime.InternalCommands
import Opaal.Runtime.StaticArguments

/-!
# The option terminator from validation to execution

Validation takes one `--` for the end of the options, planning removes it, and the executor reads
what is left. Planning removes the word that validation took, except for `help`; but `kill` no
longer sees which of its words stood behind it.
-/

namespace Opaal.Runtime.Command

open List
open CommandArgumentSchema

/-! ## The terminator that validation takes -/

/-- The argument at which a pass stops to recognise options. -/
def terminatorTakenFrom (schema : CommandArgumentSchema) :
    (values : Nat) → (index : Nat) → ScanState → List CommandArgumentInput → Option Nat
  | _, _, _, [] => none
  | values + 1, index, state, _ :: rest => terminatorTakenFrom schema values (index + 1) state rest
  | 0, index, state, input :: rest =>
    match schema.read state index rest.length input with
    | .next after values =>
      if state.optionsActive && !after.optionsActive then some index
      else terminatorTakenFrom schema values (index + 1) after rest
    | .stop _ => none

def terminatorTaken (schema : CommandArgumentSchema) (inputs : List CommandArgumentInput) : Option Nat :=
  terminatorTakenFrom schema 0 0 .initial inputs

/-- No option of a standard command takes values, and each accepts a terminator. -/
theorem standard_schema (command : InternalCommand) :
    command.schema.terminator = .accepted ∧ ∀ option ∈ command.schema.options, option.valueArity = 0 := by
  cases command <;> decide

variable {schema : CommandArgumentSchema} {state : ScanState} {before behind arguments front : List PlannedArgument}
  {bytes : Word} {targets targets' : List Nat} {selector selector' : Option Word} {started : Bool} {index : Nat}
  {option : CommandOptionSchema}

/-- Without option values, an argument other than the terminator keeps options recognised. -/
theorem read_keeps_options (flags : ∀ option ∈ schema.options, option.valueArity = 0) (active : state.optionsActive = true)
    (index available : Nat) {argument : PlannedArgument} (other : argument ≠ .word terminatorWord) :
    ∃ after, schema.read state index available argument.input = .next after 0 ∧ after.optionsActive = true := by
  cases argument with
  | value => exact ⟨_, rfl, by simpa using active⟩
  | word bytes =>
    have notTerminator : bytes ≠ terminatorWord := fun same => other (by rw [same])
    simp only [PlannedArgument.input, CommandArgumentSchema.read, notTerminator, decide_false, Bool.and_false,
      Bool.false_eq_true, if_false, readOption]
    split
    · split
      · exact ⟨_, rfl, active⟩
      · next option found =>
        simp only [flags option (mem_of_find?_eq_some found), Nat.not_lt_zero, if_false]
        have reads := schema.reads_enterOption state index option
        exact ⟨_, rfl, reads.active.trans active⟩
    · exact ⟨_, rfl, by simpa using active⟩

theorem terminatorTakenFrom_eq (accepts : schema.terminator = .accepted)
    (flags : ∀ option ∈ schema.options, option.valueArity = 0) (arguments : List PlannedArgument)
    (active : state.optionsActive = true) (index : Nat) :
    terminatorTakenFrom schema 0 index state (arguments.map PlannedArgument.input) =
      (terminatorPosition arguments).map (· + index) := by
  induction arguments generalizing state index with
  | nil => rfl
  | cons argument rest ih =>
    by_cases isTerminator : argument = .word terminatorWord
    · subst isTerminator
      simp [terminatorTakenFrom, PlannedArgument.input, CommandArgumentSchema.read, active, accepts, terminatorPosition,
        List.findIdx?_cons]
    · obtain ⟨after, reads, stillActive⟩ :=
        read_keeps_options flags active index (rest.map PlannedArgument.input).length isTerminator
      rw [map_cons, terminatorTakenFrom, reads]
      simp only [active, stillActive, Bool.not_true, Bool.and_false, Bool.false_eq_true, if_false]
      rw [ih stillActive, terminatorPosition, terminatorPosition, List.findIdx?_cons, if_neg (by simpa using isTerminator),
        Option.map_map]
      congr 1
      funext place
      simp only [Function.comp_apply]
      omega

/-- Validation takes the first `--`. -/
theorem terminatorTaken_eq (command : InternalCommand) (arguments : List PlannedArgument) :
    terminatorTaken command.schema (arguments.map PlannedArgument.input) = terminatorPosition arguments := by
  obtain ⟨accepts, flags⟩ := standard_schema command
  rw [terminatorTaken, terminatorTakenFrom_eq accepts flags arguments rfl]
  simp

theorem terminatorPosition_split (first : .word terminatorWord ∉ before) :
    terminatorPosition (before ++ .word terminatorWord :: behind) = some before.length := by
  rw [terminatorPosition, List.findIdx?_append]
  have none : before.findIdx? (· = PlannedArgument.word terminatorWord) = none := by
    rw [List.findIdx?_eq_none_iff]
    intro argument found
    simpa using fun same : argument = .word terminatorWord => first (same ▸ found)
  simp [none, List.findIdx?_cons]

theorem terminatorPosition_some {place : Nat} (found : terminatorPosition arguments = some place) :
    ∃ before behind, arguments = before ++ .word terminatorWord :: behind ∧ .word terminatorWord ∉ before ∧
      before.length = place := by
  obtain ⟨inside, isTerminator, others⟩ := List.findIdx?_eq_some_iff_getElem.mp found
  refine ⟨arguments.take place, arguments.drop (place + 1), ?_, ?_, by simp; omega⟩
  · have here : arguments[place] = .word terminatorWord := by simpa using isTerminator
    rw [← here, ← drop_eq_getElem_cons inside, take_append_drop]
  · intro early
    obtain ⟨index, bound, same⟩ := mem_take_iff_getElem.mp early
    have different := others index (by omega)
    simp [same] at different

theorem terminatorPosition_none :
    terminatorPosition arguments = none ↔ .word terminatorWord ∉ arguments := by
  rw [terminatorPosition, List.findIdx?_eq_none_iff]
  constructor
  · intro none found
    simpa using none _ found
  · intro missing argument found
    simpa using fun same : argument = .word terminatorWord => missing (same ▸ found)

theorem removeOptionTerminator_split (first : .word terminatorWord ∉ before) :
    removeOptionTerminator (before ++ .word terminatorWord :: behind) = before ++ behind := by
  rw [removeOptionTerminator, terminatorPosition_split first]
  simp [eraseIdx_append_of_length_le]

/-! ## Names behind lossy text -/

/-- Lossy text without a replacement character is the text of its bytes. -/
theorem bytes_of_fromUtf8Lossy {name : List Char} (same : fromUtf8Lossy bytes = String.ofList name)
    (plain : Char.ofNat 0xFFFD ∉ name) : bytes = Text.bytes name := by
  have chars : fromUtf8LossyFrom (bytes.length + 1) bytes = name := by
    have lists := congrArg String.toList same
    simpa [fromUtf8Lossy] using lists
  rw [fromUtf8LossyFrom] at chars
  split at chars
  · next empty => rw [← chars, empty]; rfl
  · split at chars
    · next text decoded => rw [← chars, ← Text.decode_eq_some decoded]
    · exact absurd (by rw [← chars]; simp) plain

theorem killSelector_of_name (named : fromUtf8Lossy bytes ∈ killSignalNames) : bytes ∈ killSelectors := by
  refine mem_map.mpr ⟨fromUtf8Lossy bytes, named, ?_⟩
  refine (bytes_of_fromUtf8Lossy (by simp) ?_).symm
  have plain : ∀ name ∈ killSignalNames, Char.ofNat 0xFFFD ∉ name.toList := by decide
  exact plain _ named

/-! ## The loop of `kill` -/

/-- Whether the words that are no options are distinct job targets, none of them in a list. -/
def distinctTargets : (targets : List Nat) → List PlannedArgument → Bool
  | _, [] => true
  | _, .value :: _ => false
  | targets, .word bytes :: rest =>
    if terminatorWord.isPrefixOf bytes then distinctTargets targets rest
    else
      match parseJobTargetWord .kill bytes with
      | .error _ => false
      | .ok job => !targets.contains job && distinctTargets (targets ++ [job]) rest

theorem distinctTargets_front {back : List PlannedArgument} (distinct : distinctTargets targets (front ++ back) = true) : distinctTargets targets front = true := by
  induction front generalizing targets with
  | nil => rfl
  | cons argument _ ih =>
    cases argument with
    | value => simp [distinctTargets] at distinct
    | word bytes =>
      rw [cons_append, distinctTargets] at distinct
      rw [distinctTargets]
      split
      · next asOption =>
        rw [if_pos asOption] at distinct
        exact ih distinct
      · next notOption =>
        rw [if_neg notOption] at distinct
        cases parsed : parseJobTargetWord .kill bytes with
        | error => simp [parsed] at distinct
        | ok =>
          simp only [parsed, Bool.and_eq_true] at distinct ⊢
          exact ⟨distinct.1, ih distinct.2⟩

/-- An argument taken for an option looks like one, and every word before it was fine. -/
theorem parseKillFrom_option (taken : (parseKillFrom arguments selector started targets).roles[index]? = some .option) :
    ∃ front bytes later, arguments = front ++ .word bytes :: later ∧ front.length = index ∧
      terminatorWord.isPrefixOf bytes = true ∧ distinctTargets targets front = true := by
  induction arguments generalizing selector started targets index with
  | nil =>
    rw [parseKillFrom] at taken
    split at taken <;> simp at taken
  | cons argument rest ih =>
    cases argument with
    | value => simp [parseKillFrom] at taken
    | word bytes =>
      rw [parseKillFrom] at taken
      cases index with
      | zero =>
        split at taken
        · next asOption => exact ⟨[], bytes, rest, rfl, rfl, asOption, rfl⟩
        · split at taken
          · simp at taken
          · split at taken <;> simp at taken
      | succ index =>
        have deeper {selector : Option Word} {started : Bool} {more : List Nat}
            (taken : (parseKillFrom rest selector started more).roles[index]? = some .option)
            (lift : ∀ front, distinctTargets more front = true → distinctTargets targets (.word bytes :: front) = true) :
            ∃ front word later, PlannedArgument.word bytes :: rest = front ++ .word word :: later ∧
              front.length = index + 1 ∧ terminatorWord.isPrefixOf word = true ∧ distinctTargets targets front = true := by
          obtain ⟨front, word, later, rfl, length, asOption, distinct⟩ := ih taken
          exact ⟨.word bytes :: front, word, later, rfl, by simp [length], asOption, lift front distinct⟩
        split at taken
        · next asOption =>
          have lift (front : List PlannedArgument) (distinct : distinctTargets targets front = true) :
              distinctTargets targets (.word bytes :: front) = true := by
            rw [distinctTargets, if_pos asOption, distinct]
          split at taken
          · simp at taken
          · split at taken
            · simp at taken
            · split at taken
              · simp at taken
              · exact deeper (by simpa using taken) lift
        · next notOption =>
          cases parsed : parseJobTargetWord .kill bytes with
          | error => simp [parsed] at taken
          | ok =>
            simp only [parsed] at taken
            split at taken
            · simp at taken
            · next fresh =>
              refine deeper (by simpa using taken) fun front distinct => ?_
              rw [distinctTargets, if_neg notOption]
              simp [parsed, fresh, distinct]

/-- The loop gets through some arguments without an error, into another state. -/
structure Passes (front : List PlannedArgument) (selector : Option Word) (started : Bool) (targets : List Nat)
    (selector' : Option Word) (started' : Bool) (targets' : List Nat) : Prop where
  roles : ∀ rest, ∃ own, own.length = front.length ∧
    (parseKillFrom (front ++ rest) selector started targets).roles = own ++ (parseKillFrom rest selector' started' targets').roles
  distinct : ∀ rest, distinctTargets targets (front ++ rest) = distinctTargets targets' rest

theorem Passes.nil (selector : Option Word) (started : Bool) (targets : List Nat) :
    Passes [] selector started targets selector started targets :=
  ⟨fun _ => ⟨[], rfl, rfl⟩, fun _ => rfl⟩

theorem Passes.cons_option {started' : Bool} (asOption : terminatorWord.isPrefixOf bytes = true)
    (known : bytes ∈ killSelectors) (passes : Passes front (some bytes) false targets selector' started' targets') :
    Passes (.word bytes :: front) none false targets selector' started' targets' where
  roles rest := by
    obtain ⟨own, length, roles⟩ := passes.roles rest
    refine ⟨.option :: own, by simp [length], ?_⟩
    rw [cons_append, parseKillFrom, if_pos asOption]
    simp [known, roles]
  distinct rest := by
    rw [cons_append, distinctTargets, if_pos asOption]
    exact passes.distinct rest

theorem Passes.cons_target {started' : Bool} {job : Nat} (notOption : ¬terminatorWord.isPrefixOf bytes = true)
    (parsed : parseJobTargetWord .kill bytes = .ok job) (fresh : job ∉ targets)
    (passes : Passes front selector true (targets ++ [job]) selector' started' targets') :
    Passes (.word bytes :: front) selector started targets selector' started' targets' where
  roles rest := by
    obtain ⟨own, length, roles⟩ := passes.roles rest
    refine ⟨.positional :: own, by simp [length], ?_⟩
    rw [cons_append, parseKillFrom, if_neg notOption]
    simp [parsed, fresh, roles]
  distinct rest := by
    rw [cons_append, distinctTargets, if_neg notOption]
    simp [parsed, fresh, passes.distinct rest]

/-- Distinct targets alone are passed. -/
theorem passes_targets (noOption : ∀ bytes, .word bytes ∈ front → ¬terminatorWord.isPrefixOf bytes = true)
    (selector : Option Word) (started : Bool) (distinct : distinctTargets targets front = true) :
    ∃ started' targets', Passes front selector started targets selector started' targets' := by
  induction front generalizing started targets with
  | nil => exact ⟨started, targets, .nil _ _ _⟩
  | cons argument _ ih =>
    cases argument with
    | value => simp [distinctTargets] at distinct
    | word bytes =>
      have notOption := noOption bytes (by simp)
      rw [distinctTargets, if_neg notOption] at distinct
      cases parsed : parseJobTargetWord .kill bytes with
      | error => simp [parsed] at distinct
      | ok =>
        simp only [parsed, Bool.and_eq_true, Bool.not_eq_true', contains_eq_mem, decide_eq_false_iff_not] at distinct
        obtain ⟨started', targets', passes⟩ := ih (fun bytes found => noOption bytes (by simp [found])) true distinct.2
        exact ⟨started', targets', .cons_target notOption parsed distinct.1 passes⟩

variable (schema : CommandArgumentSchema)

theorem enterOption_seen (state : ScanState) (index : Nat) (option : CommandOptionSchema) :
    (schema.enterOption state index option).seen = option.name :: state.seen := by
  simp only [enterOption, afterPositionalCheck,
    repeatedCheck, conflictCheck]
  split <;> split <;> split <;> rfl

theorem enterOption_started (state : ScanState) (index : Nat) (option : CommandOptionSchema) :
    (schema.enterOption state index option).positionalStarted = state.positionalStarted := by
  simp only [enterOption, afterPositionalCheck,
    repeatedCheck, conflictCheck]
  split <;> split <;> split <;> rfl

theorem readPositional_seen (state : ScanState) (index : Nat) (actual : CommandArgumentKind) :
    (schema.readPositional state index actual).seen = state.seen := by
  simp only [readPositional]
  split <;> rfl

theorem readPositional_started (state : ScanState) (index : Nat) (actual : CommandArgumentKind) :
    (schema.readPositional state index actual).positionalStarted = true := by
  simp only [readPositional]
  split <;> rfl

/-- Validation of the words before the terminator in step with the loop over them. -/
structure Follows (state : ScanState) (selector : Option Word) (started : Bool) : Prop where
  active : state.optionsActive = true
  seen : ∀ name ∈ state.seen, name ∈ killSignalNames
  selector : state.seen = [] → selector = none
  started : state.positionalStarted = started

theorem killOption_spec {name : String} (found : InternalCommand.kill.schema.option name = some option) :
    option.name = name ∧ name ∈ killSignalNames ∧ option.valueArity = 0 ∧ option.repeatable = false ∧
      ∀ other ∈ killSignalNames, other ≠ name → other ∈ option.conflicts := by
  have named : option.name = name := by simpa using List.find?_some found
  have inside : option ∈ killSignalOptions := mem_of_find?_eq_some found
  have all : ∀ option ∈ killSignalOptions, option.name ∈ killSignalNames ∧ option.valueArity = 0 ∧
      option.repeatable = false ∧ ∀ other ∈ killSignalNames, other ≠ option.name → other ∈ option.conflicts := by decide
  obtain ⟨known, arity, once, conflicts⟩ := all option inside
  rw [named] at known conflicts
  exact ⟨named, known, arity, once, conflicts⟩

/-- A signal option without a fault is the first one and precedes every target. -/
theorem killOption_first {name : String} (found : InternalCommand.kill.schema.option name = some option)
    (clean : (InternalCommand.kill.schema.enterOption state index option).faults = [])
    (seen : ∀ name ∈ state.seen, name ∈ killSignalNames) : state.positionalStarted = false ∧ state.seen = [] := by
  obtain ⟨named, _, _, once, conflicts⟩ := killOption_spec found
  simp only [enterOption, afterPositionalCheck,
    repeatedCheck, conflictCheck] at clean
  split at clean
  · simp [ScanState.fault] at clean
  next apart =>
  split at clean
  · exfalso
    split at clean <;> simp [ScanState.fault] at clean
  next inOrder =>
  split at clean
  · simp [ScanState.fault] at clean
  next fresh =>
  simp only [if_neg inOrder, if_neg fresh] at apart
  refine ⟨?_, eq_nil_iff_forall_not_mem.mpr fun other already => ?_⟩
  · simpa [InternalCommand.schema] using inOrder
  · by_cases same : other = name
    · refine fresh ?_
      simp [once, named, ← same, already]
    · have conflicting := List.find?_eq_none.mp apart other (conflicts other (seen other already) same)
      simp [already] at conflicting

/-- The loop passes whatever validation let through before the terminator, if its targets are fine. -/
theorem passes_validated (noTerminator : .word terminatorWord ∉ before) {tail : List CommandArgumentInput}
    (follows : Follows state selector started)
    (clean : (InternalCommand.kill.schema.scan 0 index state (before.map PlannedArgument.input ++ tail)).faults = [])
    (distinct : distinctTargets targets before = true) :
    ∃ selector' started' targets', Passes before selector started targets selector' started' targets' := by
  induction before generalizing state index selector started targets with
  | nil => exact ⟨selector, started, targets, .nil _ _ _⟩
  | cons argument rest ih =>
    cases argument with
    | value => simp [distinctTargets] at distinct
    | word bytes =>
      have restNoTerminator : .word terminatorWord ∉ rest := fun found => noTerminator (by simp [found])
      have notTerminator : bytes ≠ terminatorWord := fun same => noTerminator (by simp [same])
      have terminates : ¬(decide (InternalCommand.kill.schema.terminator = .accepted) && decide (bytes = terminatorWord)) = true := by
        simp [notTerminator]
      have cleanFrom {values index : Nat} {state : ScanState} {inputs : List CommandArgumentInput}
          (clean : (InternalCommand.kill.schema.scan values index state inputs).faults = []) : state.faults = [] := by
        obtain ⟨⟨_, hasFaults, _⟩, _⟩ := InternalCommand.kill.schema.scan_adds values index state inputs
        rw [hasFaults, append_eq_nil_iff] at clean
        exact clean.1
      simp only [map_cons, cons_append, PlannedArgument.input] at clean
      by_cases prefixed : terminatorWord.isPrefixOf bytes = true
      · have asOption : (terminatorWord.isPrefixOf bytes &&
            !(decide (InternalCommand.kill.schema.terminator = .literal) && decide (bytes = terminatorWord))) = true := by
          simp [prefixed, notTerminator]
        rw [distinctTargets, if_pos prefixed] at distinct
        cases lookup : InternalCommand.kill.schema.option (fromUtf8Lossy bytes) with
        | none =>
          rw [scan_unknown_option follows.active terminates asOption lookup] at clean
          exact absurd (cleanFrom clean) (fault_ne_nil _ _ _)
        | some option =>
          obtain ⟨named, known, arity, _, _⟩ := killOption_spec lookup
          rw [scan_known_option follows.active terminates asOption lookup, arity,
            if_neg (Nat.not_lt_zero _)] at clean
          obtain ⟨inOrder, none⟩ := killOption_first lookup (cleanFrom clean) follows.seen
          obtain rfl : started = false := follows.started.symm.trans inOrder
          obtain rfl := follows.selector none
          have reads := InternalCommand.kill.schema.reads_enterOption state index option
          have after : Follows (InternalCommand.kill.schema.enterOption state index option) (some bytes) false := {
            active := reads.active.trans follows.active
            seen := fun other found => by
              rw [enterOption_seen, named, none, mem_singleton] at found
              rw [found]
              exact known
            selector := fun empty => by
              cases empty
            started := by rw [enterOption_started, inOrder] }
          obtain ⟨selector', started', targets', passes⟩ := ih restNoTerminator after clean distinct
          exact ⟨selector', started', targets', .cons_option prefixed (killSelector_of_name known) passes⟩
      · rw [distinctTargets, if_neg prefixed] at distinct
        have asOption : ¬(terminatorWord.isPrefixOf bytes &&
            !(decide (InternalCommand.kill.schema.terminator = .literal) && decide (bytes = terminatorWord))) = true := by
          simp [prefixed]
        simp only [scan, CommandArgumentSchema.read, follows.active, Bool.true_and, if_neg terminates,
          if_neg asOption] at clean
        have reads := InternalCommand.kill.schema.reads_readPositional state index .word
        have after : Follows (InternalCommand.kill.schema.readPositional state index .word) selector true := {
          active := reads.active.trans follows.active
          seen := by rw [readPositional_seen]; exact follows.seen
          selector := by rw [readPositional_seen]; exact follows.selector
          started := readPositional_started _ _ _ _ }
        cases parsed : parseJobTargetWord .kill bytes with
        | error => simp [parsed] at distinct
        | ok =>
          simp only [parsed, Bool.and_eq_true, Bool.not_eq_true', contains_eq_mem, decide_eq_false_iff_not] at distinct
          obtain ⟨selector', started', targets', passes⟩ := ih restNoTerminator after clean distinct.2
          exact ⟨selector', started', targets', .cons_target prefixed parsed distinct.1 passes⟩

/-! ## From validation to execution -/

/-- Planning removed the terminator that validation took, and no argument behind it is an option to
the executor. -/
structure TerminatorHonoured (command : InternalCommand) (arguments : List PlannedArgument) : Prop where
  removed : (planArguments command arguments).removed =
    terminatorTaken command.schema (arguments.map PlannedArgument.input)
  positional : ∀ place, terminatorTaken command.schema (arguments.map PlannedArgument.input) = some place →
    ∀ index ≥ place, (readArguments command (planArguments command arguments).arguments).roles[index]? ≠ some .option

/-- The arguments over which the three passes agree: `help` gets no terminator, and behind that of
`kill` there is no word like an option that its loop would reach. -/
def TerminatorKept (command : InternalCommand) (arguments : List PlannedArgument) : Prop :=
  (command = .help → .word terminatorWord ∉ arguments) ∧
  (command = .kill → ∀ before passed bytes later,
    arguments = before ++ .word terminatorWord :: (passed ++ .word bytes :: later) → .word terminatorWord ∉ before →
    terminatorWord.isPrefixOf bytes = true → distinctTargets [] (before ++ passed) = false)

/-- Only `kill` takes an argument for an option. -/
theorem readArguments_byPlace {command : InternalCommand} (other : command ≠ .kill) (arguments : List PlannedArgument)
    (index : Nat) : (readArguments command arguments).roles[index]? ≠ some .option := by
  have byPlaceRole (outcome : Except ArgumentError ParsedArguments) :
      (byPlace arguments outcome).roles[index]? ≠ some .option := by
    intro isOption
    rw [byPlace, List.getElem?_map] at isOption
    obtain ⟨_, _, same⟩ := Option.map_eq_some_iff.mp isOption
    cases same
  cases command <;> first | exact byPlaceRole _ | contradiction

/-- The first word like an option, in a list that has one. -/
theorem first_option_split (passed later : List PlannedArgument) (asOption : terminatorWord.isPrefixOf bytes = true) :
    ∃ front word back rest, passed ++ .word bytes :: later = front ++ .word word :: back ∧ passed = front ++ rest ∧
      terminatorWord.isPrefixOf word = true ∧ ∀ other, .word other ∈ front → ¬terminatorWord.isPrefixOf other = true := by
  induction passed with
  | nil => exact ⟨[], bytes, later, [], rfl, rfl, asOption, by simp⟩
  | cons argument passed ih =>
    by_cases here : ∃ word, argument = .word word ∧ terminatorWord.isPrefixOf word = true
    · obtain ⟨word, rfl, isOption⟩ := here
      exact ⟨[], word, passed ++ .word bytes :: later, .word word :: passed, rfl, rfl, isOption, by simp⟩
    · obtain ⟨front, word, back, rest, split, rfl, isOption, none⟩ := ih
      refine ⟨argument :: front, word, back, rest, by rw [cons_append, split, cons_append], rfl, isOption, ?_⟩
      intro other found isOther
      rcases mem_cons.mp found with same | found
      · exact here ⟨other, same.symm, isOther⟩
      · exact none other found isOther

/-- A reached word like an option behind the terminator is one to the loop of `kill`. -/
theorem kill_takes_option {passed later : List PlannedArgument} (first : .word terminatorWord ∉ before)
    (asOption : terminatorWord.isPrefixOf bytes = true)
    (valid : InternalCommand.kill.schema.validate ((before ++ .word terminatorWord :: (passed ++ .word bytes :: later)).map PlannedArgument.input) = [])
    (distinct : distinctTargets [] (before ++ passed) = true) :
    ∃ index ≥ before.length, (parseKillArguments (before ++ (passed ++ .word bytes :: later))).roles[index]? = some .option := by
  obtain ⟨front, word, back, rest, split, rfl, isOption, noOption⟩ := first_option_split passed later asOption
  have clean := (append_eq_nil_iff.mp valid).1
  rw [map_append] at clean
  have start : Follows ScanState.initial none false := ⟨rfl, by simp [ScanState.initial], fun _ => rfl, rfl⟩
  obtain ⟨selector, started, targets, passes⟩ := passes_validated first start clean (distinctTargets_front distinct)
  have distinctFront : distinctTargets targets front = true := by
    rw [passes.distinct] at distinct
    exact distinctTargets_front distinct
  obtain ⟨started', targets', passesFront⟩ := passes_targets noOption selector started distinctFront
  obtain ⟨own, length, roles⟩ := passes.roles (front ++ .word word :: back)
  obtain ⟨ownFront, lengthFront, rolesFront⟩ := passesFront.roles (.word word :: back)
  refine ⟨before.length + front.length, by omega, ?_⟩
  rw [split, parseKillArguments, roles, rolesFront, ← append_assoc,
    List.getElem?_append_right (by simp only [length_append]; omega)]
  have place : before.length + front.length - (own ++ ownFront).length = 0 := by
    simp only [length_append]
    omega
  rw [place, parseKillFrom, if_pos isOption]
  split
  · rfl
  · split
    · rfl
    · split <;> rfl

/-- For accepted arguments, the terminator is honoured by exactly those that keep it. -/
theorem terminator_honoured_iff (command : InternalCommand) (arguments : List PlannedArgument)
    (accepted : command.schema.validate (arguments.map PlannedArgument.input) = []) :
    TerminatorHonoured command arguments ↔ TerminatorKept command arguments := by
  have taken := terminatorTaken_eq command arguments
  by_cases isHelp : command = .help
  · subst isHelp
    have plan : (planArguments .help arguments).removed = none := rfl
    constructor
    · intro honoured
      have removed := honoured.removed
      rw [plan, taken] at removed
      exact ⟨fun _ => terminatorPosition_none.mp removed.symm, by simp⟩
    · intro kept
      have none := terminatorPosition_none.mpr (kept.1 rfl)
      refine ⟨by rw [plan, taken, none], fun place found => ?_⟩
      rw [taken, none] at found
      cases found
  have accepts := (standard_schema command).1
  have plan : planArguments command arguments = ⟨removeOptionTerminator arguments, terminatorPosition arguments⟩ := by
    rw [planArguments, if_neg isHelp, if_pos accepts]
  by_cases isKill : command = .kill
  · subst isKill
    constructor
    · intro honoured
      refine ⟨fun help => absurd help isHelp, fun _ before passed bytes later split first asOption => ?_⟩
      by_contra distinct
      subst split
      obtain ⟨index, behind, isOption⟩ := kill_takes_option first asOption accepted (by simpa using distinct)
      have positional := honoured.positional before.length (by rw [taken, terminatorPosition_split first]) index behind
      rw [plan, removeOptionTerminator_split first] at positional
      exact positional isOption
    · intro kept
      refine ⟨by rw [plan, taken], fun place found index behind isOption => ?_⟩
      rw [taken] at found
      obtain ⟨before, behindTerminator, rfl, first, rfl⟩ := terminatorPosition_some found
      rw [plan, removeOptionTerminator_split first] at isOption
      change (parseKillFrom (before ++ behindTerminator) none false []).roles[index]? = some .option at isOption
      obtain ⟨front, bytes, later, split, length, asOption, distinct⟩ := parseKillFrom_option isOption
      have fromBefore : before <+: before ++ behindTerminator := prefix_append _ _
      have fromFront : front <+: before ++ behindTerminator := by
        rw [split]
        exact prefix_append _ _
      have isPrefix : before <+: front := prefix_of_prefix_length_le fromBefore fromFront (by omega)
      obtain ⟨passed, rfl⟩ := isPrefix
      rw [append_assoc, append_cancel_left_eq] at split
      subst split
      have reached := kept.2 rfl before passed bytes later rfl first asOption
      rw [distinct] at reached
      cases reached
  · refine ⟨fun _ => ⟨fun help => absurd help isHelp, fun kill => absurd kill isKill⟩, fun _ => ?_⟩
    refine ⟨by rw [plan, taken], fun place _ index _ => readArguments_byPlace isKill _ index⟩

theorem terminator_honoured_iff_cd :
    TerminatorHonoured .cd [.word terminatorWord, .word ['-'.toUInt8, '-'.toUInt8, 'x'.toUInt8]] :=
  (terminator_honoured_iff .cd [.word terminatorWord, .word ['-'.toUInt8, '-'.toUInt8, 'x'.toUInt8]] (by decide)).mpr
    ⟨by simp, by simp⟩

/-- `kill -- --kill %1` names a target like an option and sends the signal of that option. -/
theorem kill_reads_protected_word :
    InternalCommand.kill.schema.validate
      ([.word terminatorWord, .word (Text.bytes "--kill".toList), .word (Text.bytes "%1".toList)].map PlannedArgument.input) = [] ∧
    (readArguments .kill (planArguments .kill
      [.word terminatorWord, .word (Text.bytes "--kill".toList), .word (Text.bytes "%1".toList)]).arguments).outcome =
        .ok (.signal .kill [1]) ∧
    ¬TerminatorHonoured .kill [.word terminatorWord, .word (Text.bytes "--kill".toList), .word (Text.bytes "%1".toList)] := by
  refine ⟨by decide, by rfl, fun honoured => ?_⟩
  refine honoured.positional 0 (by decide) 0 (le_refl _) ?_
  rfl

end Opaal.Runtime.Command
