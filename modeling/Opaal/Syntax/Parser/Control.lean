import Opaal.Syntax.Parser.Totality

/-!
# Parsing under a predicate that may cancel

The polls of a parse are numbered: a predicate is the answer it gives at each.  The
lexer polls before every step and once more at the end, the parser before and after
it classifies the tokens, in its own rules, and once more when the script is parsed.
-/

namespace Opaal.Syntax

open Opaal.Machine
open Opaal.Syntax.Parser

namespace Lexer

variable (source : SourceFile) (isCancelled : Nat → Bool)

/-- Whether the predicate cancelled, and how many polls were taken. -/
def runWithControl : Nat → Nat → LexM (Bool × Nat)
  | 0, _ => failure
  | bound + 1, polls => do
    if (← here) < source.len then
      if isCancelled polls then return (true, polls + 1)
      step source
      runWithControl bound (polls + 1)
    else return (isCancelled polls, polls + 1)

end Lexer

section Control

variable (source : SourceFile) (isCancelled : Nat → Bool)

/-- The tokens, or none where the predicate cancelled, and the polls taken. -/
def lexOpaalWithControl : Option (Option (List Token) × Nat) :=
  (Lexer.runWithControl source isCancelled (Lexer.loopBound source) 0 .new).map fun ((cancelled, polls), lexer) =>
    (if cancelled then none else some lexer.tokens.reverse, polls)

/-- The input of a parser that is entered after some polls. -/
def controlledInput (tokens : List (PlacedToken source)) (polls : Nat) : ParserInput source :=
  { tokens, isCancelled := fun poll => isCancelled (polls + poll) }

/-- What a script's end is reported as; a panic and a loop without an end are not. -/
def reportedOutcome {source : SourceFile} :
    EStateM.Result (ParseError source) (Parser source) (Script source.Region) →
      Option (ControlledParseOutcome source × Parser source)
  | .ok script parser => some (.parsed (.complete script), parser)
  | .error (.incomplete incomplete) parser => some (.parsed (.incomplete incomplete), parser)
  | .error (.invalid diagnostic) parser => some (.parsed (.invalid [diagnostic]), parser)
  | .error (.invalidMany diagnostics) parser => some (.parsed (.invalid diagnostics), parser)
  | .error .cancelled parser => some (.cancelled, parser)
  | .error .panicked _ | .error .exhausted _ => none

/-- `parse_tokens` with its polls: the last one decides over what was parsed. -/
def parseTokensWithControl (tokens : List Token) (polls : Nat) : Option (ControlledParseOutcome source × Nat) :=
  if isCancelled polls then some (.cancelled, polls + 1) else
  match tokens.mapM (Token.placed source) with
  | .error _ => none
  | .ok placed =>
    match classifyOpaalTokens placed with
    | .error _ => none
    | .ok classification =>
      if isCancelled (polls + 1) then some (.cancelled, polls + 2) else
      match classification with
      | .incomplete incomplete => some (.parsed (.incomplete incomplete), polls + 2)
      | .invalid diagnostic => some (.parsed (.invalid [diagnostic]), polls + 2)
      | .complete =>
        let input := controlledInput source isCancelled placed (polls + 2)
        match reportedOutcome (parseScript input (Parser.new input)) with
        | none => none
        | some (controlled, parser) =>
          let last := polls + 2 + parser.polls
          if isCancelled last then some (.cancelled, last + 1) else some (controlled, last + 1)

/-- Parses a source under a predicate, with the polls taken.  `none` is a panic of the
source, or a loop of it without an end. -/
def parseOpaalWithControl : Option (ControlledParseOutcome source × Nat) :=
  match lexOpaalWithControl source isCancelled with
  | none => none
  | some (none, polls) => some (.cancelled, polls)
  | some (some tokens, polls) => parseTokensWithControl source isCancelled tokens polls

/-- The predicate stops the parse in one of the two places its rules do not reckon
with: between the name of an assignment and its operator, or where the arms of a match
would be gone over again without a token taken. -/
def Stumbles : Prop :=
  ∃ tokens polls placed parser, lexOpaalWithControl source isCancelled = some (some tokens, polls) ∧
    tokens.mapM (Token.placed source) = .ok placed ∧ classifyOpaalTokens placed = .ok .complete ∧
    parseScriptIn true (controlledInput source isCancelled placed (polls + 2))
      (Parser.new (controlledInput source isCancelled placed (polls + 2))) = .error (.invalidMany []) parser

/-- The parse ends, cancelled or with the outcome of the parse that is never cancelled.
It has that outcome only if no poll it took was cancelled, and has it if none would be. -/
def Transparent : Prop :=
  ∃ controlled polls, parseOpaalWithControl source isCancelled = some (controlled, polls) ∧
    (controlled = .cancelled ∨ ∃ outcome, controlled = .parsed outcome ∧ parseOpaal source = some outcome ∧
      ∀ poll < polls, isCancelled poll = false) ∧
    ((∀ poll, isCancelled poll = false) → controlled ≠ .cancelled)

end Control

/-! ## Lexing -/

namespace Lexer

variable {source : SourceFile} {isCancelled : Nat → Bool} {bound : Nat} {lexer final : Lexer}

theorem run_inside (inside : lexer.position < source.len) :
    run source (bound + 1) lexer = (step source lexer).bind fun turned => run source bound turned.2 := by
  show (if lexer.position < source.len then _ else _ : LexM Unit) lexer = _
  rw [if_pos inside]
  rfl

theorem runWithControl_inside {polls : Nat} (inside : lexer.position < source.len) (going : isCancelled polls = false) :
    runWithControl source isCancelled (bound + 1) polls lexer =
      (step source lexer).bind fun turned => runWithControl source isCancelled bound (polls + 1) turned.2 := by
  show (if lexer.position < source.len then _ else _ : LexM (Bool × Nat)) lexer = _
  rw [if_pos inside, going]
  rfl

theorem runWithControl_cancelled {polls : Nat} (inside : lexer.position < source.len) (cancelled : isCancelled polls = true) :
    runWithControl source isCancelled (bound + 1) polls lexer = some ((true, polls + 1), lexer) := by
  show (if lexer.position < source.len then _ else _ : LexM (Bool × Nat)) lexer = _
  rw [if_pos inside, cancelled]
  rfl

theorem runWithControl_ended {polls : Nat} (ended : ¬ lexer.position < source.len) :
    runWithControl source isCancelled (bound + 1) polls lexer = some ((isCancelled polls, polls + 1), lexer) := by
  show (if lexer.position < source.len then _ else _ : LexM (Bool × Nat)) lexer = _
  rw [if_neg ended]
  rfl

/-- A run that returns does so under a predicate too, unless that cancelled. -/
theorem runWithControl_follows (polls : Nat) (ran : run source bound lexer = some ((), final)) :
    ∃ cancelled last after, runWithControl source isCancelled bound polls lexer = some ((cancelled, last), after) ∧
      (cancelled = true → ∃ poll, isCancelled poll = true) ∧
      (cancelled = false → after = final ∧ ∀ poll, polls ≤ poll → poll < last → isCancelled poll = false) := by
  induction bound generalizing lexer polls with
  | zero => cases ran
  | succ bound ih =>
    by_cases inside : lexer.position < source.len
    · cases going : isCancelled polls with
      | true => exact ⟨true, _, lexer, runWithControl_cancelled inside going, fun _ => ⟨polls, going⟩, nofun⟩
      | false =>
        rw [run_inside inside] at ran
        obtain ⟨⟨_, next⟩, stepped, ran⟩ := Option.bind_eq_some_iff.mp ran
        obtain ⟨cancelled, last, after, result, stopped, finished⟩ := ih (polls + 1) ran
        refine ⟨cancelled, last, after, ?_, stopped, fun through => ⟨(finished through).1, ?_⟩⟩
        · rw [runWithControl_inside inside going, stepped]
          exact result
        · intro poll from_ upto
          rcases Nat.eq_or_lt_of_le from_ with rfl | later
          · exact going
          · exact (finished through).2 poll later upto
    · have ended : final = lexer := by
        have stops : run source (bound + 1) lexer = some ((), lexer) := by
          show (if lexer.position < source.len then _ else _ : LexM Unit) lexer = _
          rw [if_neg inside]
          rfl
        rw [stops] at ran
        cases ran
        rfl
      refine ⟨_, _, lexer, runWithControl_ended inside, fun cancelled => ⟨polls, cancelled⟩, fun going => ⟨ended.symm, ?_⟩⟩
      intro poll from_ upto
      have same : poll = polls := by omega
      rw [same]
      exact going

end Lexer

/-! ## Scripts -/

section Scripts

variable {source : SourceFile} {input : ParserInput source}

/-- The same tokens under a predicate that never cancels. -/
def ParserInput.calmed (input : ParserInput source) : ParserInput source := { input with isCancelled := fun _ => false }

/-- A parse that may be cancelled and one that never is. -/
def Parser.Alike.calming (lexed : input.Lexed) : Parser.Alike input where
  isCancelled := fun _ => false
  lost := fun polls => input.isCancelled polls = true
  stays := fun later cancelled => lexed.stays_from later cancelled
  answers := by
    intro polls going
    cases answer : input.isCancelled polls with
    | false => rfl
    | true => exact absurd (lexed.stays _ answer) going
  cancels := fun going cancelled _ => absurd cancelled going

theorem parseScript_shadows (lexed : input.Lexed) (alike : Parser.Alike input) :
    ShadowsFrom alike.script (parseScriptIn true) (parseScriptIn false) (.new input) :=
  (Parser.parseScriptIn_follows (.inl rfl)).shadows (new_entered lexed)

/-- A watched script that does not end astray is the script of the source; under a
predicate that has not cancelled by its end it is the script that is never cancelled. -/
theorem parseScript_follows (lexed : input.Lexed)
    (kept : ¬ EndsAstray Parser.Astray (parseScriptIn true input (.new input))) :
    parseScript input (.new input) = parseScriptIn true input (.new input) ∧
      (input.isCancelled (endState (parseScriptIn true input (.new input))).polls = false →
        parseScript input.calmed (.new input) = parseScriptIn true input (.new input)) := by
  rw [← Parser.parseScriptIn_false]
  refine ⟨(parseScript_shadows lexed (.watching lexed)).follows id kept, fun going => ?_⟩
  refine (parseScript_shadows lexed (.calming lexed)).follows ?_ kept
  exact (Bool.not_eq_true _).mpr going

theorem parseScript_dooms (lexed : input.Lexed)
    (astray : EndsAstray Parser.Astray (parseScriptIn true input (.new input))) :
    reportedOutcome (parseScript input (.new input)) = none := by
  rw [← Parser.parseScriptIn_false]
  obtain ⟨error, after, failed, doomed⟩ := (parseScript_shadows lexed (.watching lexed)).dooms id astray
  have failed : parseScriptIn false input (.new input) = .error error after := failed
  rw [failed]
  rcases doomed.cases with rfl | rfl
  · rfl
  · rfl

/-- A watched script that did not end astray is reported. -/
theorem reportedOutcome_watched (lexed : input.Lexed)
    (kept : ¬ EndsAstray Parser.Astray (parseScriptIn true input (Parser.new input))) :
    ∃ controlled, reportedOutcome (parseScriptIn true input (Parser.new input)) =
      some (controlled, endState (parseScriptIn true input (Parser.new input))) ∧
      (controlled = .cancelled → ¬ input.Calm) := by
  have settled := Parser.parseScriptIn_runs (.inl rfl : true = true ∨ input.Calm) (new_entered lexed)
  cases result : parseScriptIn true input (Parser.new input) with
  | ok => exact ⟨_, rfl, nofun⟩
  | error error =>
    rw [result] at settled kept
    have settled : Parser.Settled input error := settled.2
    cases error with
    | incomplete | invalid | invalidMany => exact ⟨_, rfl, nofun⟩
    | cancelled => exact ⟨_, rfl, fun _ => settled⟩
    | panicked | exhausted => cases settled

/-- Astray, a watched script stumbled: it does not panic. -/
theorem stumbled_of_astray (lexed : input.Lexed)
    (astray : EndsAstray Parser.Astray (parseScriptIn true input (.new input))) :
    ∃ parser, parseScriptIn true input (Parser.new input) = .error (.invalidMany []) parser := by
  have settled := Parser.parseScriptIn_runs (.inl rfl : true = true ∨ input.Calm) (new_entered lexed)
  cases result : parseScriptIn true input (.new input) with
  | ok =>
    rw [result] at astray
    exact astray.elim
  | error error after =>
    rw [result] at settled astray
    have settled : Parser.Settled input error := settled.2
    cases error with
    | incomplete | invalid | cancelled => exact astray.elim
    | invalidMany diagnostics =>
      have none : diagnostics = [] := astray
      exact ⟨after, by rw [none]⟩
    | panicked | exhausted => cases settled

/-- A script is entered with a poll. -/
theorem Parser.parseScriptIn_cancelled {watched : Bool} {parser : Parser source} (cancelled : input.isCancelled parser.polls = true) :
    parseScriptIn watched input parser = .error .cancelled { parser with polls := parser.polls + 1 } := by
  have stopped : Parser.checkCancelled input parser = .error .cancelled { parser with polls := parser.polls + 1 } := by
    show (if input.isCancelled parser.polls = true then _ else _ : ParseM source Unit) input _ = _
    rw [if_pos cancelled]
    rfl
  exact error_bind stopped

/-- The tokens are parsed and the last poll decides what is reported. -/
theorem parseTokens_reported {tokens : List Token} (placedAll : tokens.mapM (Token.placed source) = .ok input.tokens)
    (classified : classifyOpaalTokens input.tokens = .ok .complete) :
    parseTokens source tokens input.isCancelled =
      (reportedOutcome (parseScript input (.new input))).map fun (controlled, parser) =>
        (controlled, parser.interpolationSpans) := by
  unfold parseTokens
  rw [placedAll]
  simp only [classified]
  cases parseScript input (.new input) with
  | ok => rfl
  | error error => cases error <;> rfl

end Scripts

/-! ## Sources -/

section Sources

variable {source : SourceFile} {isCancelled : Nat → Bool}

/-- The ways a parse under a predicate may end. -/
inductive ControlledEnd (source : SourceFile) (isCancelled : Nat → Bool) : Prop where
  | cancelled (polls poll : Nat) (ended : parseOpaalWithControl source isCancelled = some (.cancelled, polls))
      (answer : isCancelled poll = true) (unstumbled : ¬ Stumbles source isCancelled)
  | parsed (outcome : ParseOutcome source) (polls : Nat)
      (ended : parseOpaalWithControl source isCancelled = some (.parsed outcome, polls))
      (same : parseOpaal source = some outcome) (going : ∀ poll < polls, isCancelled poll = false)
      (unstumbled : ¬ Stumbles source isCancelled)
  | stumbled (ended : parseOpaalWithControl source isCancelled = none) (stumbles : Stumbles source isCancelled)

/-- A predicate that stays true once it is true. -/
abbrev Steady (isCancelled : Nat → Bool) : Prop :=
  ∀ first last, first ≤ last → isCancelled first = true → isCancelled last = true

section Lexed

variable {tokens : List Token} {placed : List (PlacedToken source)} {polls : Nat}
  (lexed : lexOpaalWithControl source isCancelled = some (some tokens, polls))
  (placedAll : tokens.mapM (Token.placed source) = .ok placed)
include lexed placedAll

theorem Stumbles.of_lexed (stumbles : Stumbles source isCancelled) :
    classifyOpaalTokens placed = .ok .complete ∧ ∃ parser,
      parseScriptIn true (controlledInput source isCancelled placed (polls + 2))
        (Parser.new (controlledInput source isCancelled placed (polls + 2))) = .error (.invalidMany []) parser := by
  obtain ⟨_, _, _, parser, lexed', placedAll', classified, stumbled⟩ := stumbles
  rw [lexed] at lexed'
  cases lexed'
  rw [placedAll] at placedAll'
  cases placedAll'
  exact ⟨classified, parser, stumbled⟩

/-- A script that is not reached, as its first poll is cancelled, does not stumble. -/
theorem unstumbled_of_cancelled (answer : isCancelled (polls + 2) = true) : ¬ Stumbles source isCancelled := by
  intro stumbles
  obtain ⟨_, _, stumbled⟩ := stumbles.of_lexed lexed placedAll
  rw [Parser.parseScriptIn_cancelled answer] at stumbled
  cases stumbled

omit lexed placedAll in
theorem parseOpaal_of_lexed (plain : lexOpaal source = some tokens) :
    parseOpaal source = (parseTokens source tokens fun _ => false).bind fun parse => match parse with
      | (.parsed outcome, _) => some outcome
      | (.cancelled, _) => none := by
  unfold parseOpaal
  rw [plain]
  rfl

/-- After the lexer, the parse ends in one of the three ways. -/
theorem controlledEnd_of_lexed (steady : Steady isCancelled) (plain : lexOpaal source = some tokens)
    (before : ∀ poll < polls, isCancelled poll = false)
    (ready : (∀ token ∈ placed, Quoted token) → (controlledInput source isCancelled placed (polls + 2)).Lexed) :
    ControlledEnd source isCancelled := by
  have parsed : parseOpaalWithControl source isCancelled = parseTokensWithControl source isCancelled tokens polls := by
    unfold parseOpaalWithControl
    rw [lexed]
  obtain ⟨classification, classified, closed⟩ := classifyOpaalTokens_answers placed
  unfold parseTokensWithControl at parsed
  cases first : isCancelled polls with
  | true =>
    rw [if_pos first] at parsed
    exact .cancelled _ polls parsed first
      (unstumbled_of_cancelled lexed placedAll (steady _ _ (Nat.le_add_right _ _) first))
  | false =>
  rw [if_neg (by rw [first]; exact Bool.false_ne_true), placedAll] at parsed
  simp only [classified] at parsed
  cases second : isCancelled (polls + 1) with
  | true =>
    rw [if_pos second] at parsed
    exact .cancelled _ (polls + 1) parsed second
      (unstumbled_of_cancelled lexed placedAll (steady _ _ (Nat.le_succ _) second))
  | false =>
  rw [if_neg (by rw [second]; exact Bool.false_ne_true)] at parsed
  have going : ∀ poll < polls + 2, isCancelled poll = false := by
    intro poll upto
    rcases Nat.lt_or_ge poll polls with earlier | later
    · exact before poll earlier
    · obtain rfl | rfl : poll = polls ∨ poll = polls + 1 := by omega
      · exact first
      · exact second
  have unparsed : classification ≠ .complete → ¬ Stumbles source isCancelled := by
    intro other stumbles
    have complete := (stumbles.of_lexed lexed placedAll).1
    rw [classified] at complete
    cases complete
    exact other rfl
  have same := parseOpaal_of_lexed plain
  cases classification with
  | incomplete | invalid =>
    refine .parsed _ _ parsed ?_ going (unparsed fun same => by cases same)
    rw [same]
    unfold parseTokens
    rw [placedAll]
    simp only [classified]
    rfl
  | complete =>
    let input : ParserInput source := controlledInput source isCancelled placed (polls + 2)
    have entered : input.Lexed := ready (closed rfl)
    by_cases astray : EndsAstray Parser.Astray (parseScriptIn true input (Parser.new input))
    · have nothing : reportedOutcome (parseScript input (Parser.new input)) = none :=
        parseScript_dooms entered astray
      refine .stumbled (parsed.trans ?_) ⟨tokens, polls, placed, ?_⟩
      · rw [nothing]
      · obtain ⟨parser, stumbled⟩ := stumbled_of_astray entered astray
        exact ⟨parser, lexed, placedAll, classified, stumbled⟩
    · obtain ⟨followed, calm⟩ := parseScript_follows entered astray
      obtain ⟨controlled, reported, cancels⟩ := reportedOutcome_watched entered astray
      have unstumbled : ¬ Stumbles source isCancelled := by
        intro stumbles
        obtain ⟨_, _, stumbled⟩ := stumbles.of_lexed lexed placedAll
        apply astray
        rw [stumbled]
        rfl
      rw [followed, reported] at parsed
      dsimp only at parsed
      cases final : isCancelled (polls + 2 + (endState (parseScriptIn true input (Parser.new input))).polls) with
      | true =>
        rw [if_pos final] at parsed
        exact .cancelled _ _ parsed final unstumbled
      | false =>
        rw [if_neg (by rw [final]; exact Bool.false_ne_true)] at parsed
        cases controlled with
        | cancelled =>
          obtain ⟨poll, answer⟩ : ∃ poll, input.isCancelled poll = true := by
            by_contra none
            exact cancels rfl fun poll => Bool.eq_false_iff.mpr fun answer => none ⟨poll, answer⟩
          exact .cancelled _ _ parsed answer unstumbled
        | parsed outcome =>
          refine .parsed outcome _ parsed ?_ ?_ unstumbled
          · have alone : parseTokens source tokens input.calmed.isCancelled = _ :=
              parseTokens_reported placedAll classified
            have still : parseScript input.calmed (Parser.new input.calmed) = _ := calm final
            rw [still, reported] at alone
            rw [same]
            exact congrArg (Option.bind · _) alone
          · intro poll upto
            by_contra answer
            have late := steady poll _ (Nat.lt_succ_iff.mp upto) (Bool.not_eq_false _ ▸ answer)
            rw [final] at late
            cases late

end Lexed

/-- Every parse under a predicate that stays true ends in one of the three ways. -/
theorem controlledEnd (steady : Steady isCancelled) : ControlledEnd source isCancelled := by
  obtain ⟨tokens, _, plain, placedAll, ready⟩ := lexOpaal_placed source
  obtain ⟨⟨_, _⟩, ran, rfl⟩ := Option.map_eq_some_iff.mp plain
  obtain ⟨cancelled, polls, after, result, stopped, finished⟩ := Lexer.runWithControl_follows 0 ran
  have lexed : lexOpaalWithControl source isCancelled =
      some (if cancelled then none else some after.tokens.reverse, polls) := by
    unfold lexOpaalWithControl
    rw [result]
    rfl
  cases cancelled with
  | true =>
    obtain ⟨poll, answer⟩ := stopped rfl
    refine .cancelled polls poll ?_ answer ?_
    · unfold parseOpaalWithControl
      rw [lexed]
      rfl
    · rintro ⟨_, _, _, _, lexed', _⟩
      rw [lexed] at lexed'
      cases lexed'
  | false =>
    obtain ⟨rfl, going⟩ := finished rfl
    refine controlledEnd_of_lexed lexed placedAll steady plain (fun poll upto => going poll (Nat.zero_le _) upto) ?_
    exact ready _ fun poll answer => steady _ _ (Nat.le_succ _) answer

/-- The parse is transparent exactly when the predicate does not stop it in one of the
two places. -/
theorem parseOpaalWithControl_transparent (source : SourceFile) (isCancelled : Nat → Bool) (steady : Steady isCancelled) :
    Transparent source isCancelled ↔ ¬ Stumbles source isCancelled := by
  have ends : ControlledEnd source isCancelled := controlledEnd steady
  cases ends with
  | cancelled _ poll ended answer unstumbled =>
    refine iff_of_true ⟨_, _, ended, .inl rfl, fun never => ?_⟩ unstumbled
    rw [never poll] at answer
    cases answer
  | parsed outcome _ ended same going unstumbled =>
    exact iff_of_true ⟨_, _, ended, .inr ⟨outcome, rfl, same, going⟩, fun _ => nofun⟩ unstumbled
  | stumbled ended stumbles =>
    refine iff_of_false ?_ (not_not_intro stumbles)
    rintro ⟨_, _, result, _⟩
    rw [ended] at result
    cases result

/-- A predicate that is true from some poll on. -/
def cancelledFrom (first : Nat) (poll : Nat) : Bool := decide (first ≤ poll)

theorem cancelledFrom_steady (first : Nat) : Steady (cancelledFrom first) := by
  intro poll last later answer
  exact decide_eq_true (Nat.le_trans (of_decide_eq_true answer) later)

/-- `x = 1`. -/
def assignedOne : SourceFile := ⟨0, ['x', ' ', '=', ' ', '1']⟩

theorem assignedOne_transparency :
    Steady (cancelledFrom 30) ∧ (Transparent assignedOne (cancelledFrom 30) ↔ ¬ Stumbles assignedOne (cancelledFrom 30)) :=
  ⟨cancelledFrom_steady 30, parseOpaalWithControl_transparent assignedOne _ (cancelledFrom_steady 30)⟩

/-- Stopped between the name and the operator it has seen, the assignment panics. -/
theorem assignment_not_transparent :
    ¬ ∀ (source : SourceFile) (isCancelled : Nat → Bool), Steady isCancelled → Transparent source isCancelled := by
  intro transparent
  obtain ⟨_, _, result, _⟩ := transparent assignedOne (cancelledFrom 18) (cancelledFrom_steady 18)
  have panics : (parseOpaalWithControl assignedOne (cancelledFrom 18)).isNone = true := by decide +kernel
  rw [result] at panics
  cases panics

end Sources

end Opaal.Syntax
