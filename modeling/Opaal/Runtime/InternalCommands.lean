import Opaal.Runtime.CommandArguments

/-!
# Internal commands

The standard commands with the arguments their schemas take, the planning of their arguments, and
how the executor of each reads what planning left. Only what the executors read of their
arguments is here, not what they do with it.
-/

namespace Opaal.Runtime.Command

/-! ## The registry -/

inductive InternalCommand where
  | cd
  | pwd
  | which
  | exit
  | check
  | decode
  | fromFormat
  | encode
  | toFormat
  | first
  | last
  | collect
  | length
  | lines
  | each
  | whereValues
  | select
  | get
  | update
  | sort
  | ls
  | openFile
  | save
  | jobs
  | fg
  | bg
  | wait
  | kill
  | help
deriving DecidableEq

def killSignalNames : List String := ["--hangup", "--interrupt", "--terminate", "--kill", "--stop", "--continue"]

/-- One flag for each signal, against all the others; conflicts are kept in spelling order. -/
def killSignalOptions : List CommandOptionSchema :=
  killSignalNames.map fun name =>
    ⟨name, 0, false, ["--continue", "--hangup", "--interrupt", "--kill", "--stop", "--terminate"].filter (· ≠ name)⟩

namespace InternalCommand

def name : InternalCommand → String
  | .cd => "cd"
  | .pwd => "pwd"
  | .which => "which"
  | .exit => "exit"
  | .check => "check"
  | .decode => "decode"
  | .fromFormat => "from"
  | .encode => "encode"
  | .toFormat => "to"
  | .first => "first"
  | .last => "last"
  | .collect => "collect"
  | .length => "length"
  | .lines => "lines"
  | .each => "each"
  | .whereValues => "where"
  | .select => "select"
  | .get => "get"
  | .update => "update"
  | .sort => "sort"
  | .ls => "ls"
  | .openFile => "open"
  | .save => "save"
  | .jobs => "jobs"
  | .fg => "fg"
  | .bg => "bg"
  | .wait => "wait"
  | .kill => "kill"
  | .help => "help"

def schema : InternalCommand → CommandArgumentSchema
  | .cd => .positional 0 (some 1)
  | .pwd => .positional 0 (some 0)
  | .which => .positional 1 none
  | .exit => .positional 0 (some 1)
  | .check => .positional 0 (some 0)
  | .decode => .positional 1 (some 1)
  | .fromFormat => .positional 1 (some 2)
  | .encode => .positional 1 (some 1)
  | .toFormat => .positional 1 (some 1)
  | .first => .positional 0 (some 1)
  | .last => .positional 0 (some 1)
  | .collect => .positional 0 (some 0)
  | .length => .positional 0 (some 0)
  | .lines => .positional 0 (some 0)
  | .each => { CommandArgumentSchema.positional 1 (some 1) with positionalKinds := [.closure] }
  | .whereValues => { CommandArgumentSchema.positional 1 (some 1) with positionalKinds := [.closure] }
  | .select => .positional 1 none
  | .get => .positional 1 (some 1)
  | .update => { CommandArgumentSchema.positional 2 (some 2) with positionalKinds := [.word, .any] }
  | .sort => .positional 0 (some 1)
  | .ls => .positional 0 (some 1)
  | .openFile => .positional 1 (some 1)
  | .save => .positional 1 (some 1)
  | .jobs => .positional 0 (some 0)
  | .fg => .positional 0 (some 1)
  | .bg => .positional 0 (some 1)
  | .wait => .positional 0 none
  | .kill =>
    { CommandArgumentSchema.positional 1 none with options := killSignalOptions, optionsBeforePositionals := true }
  | .help => .positional 0 (some 1)

end InternalCommand

/-! ## Planning -/

/-- A planned argument: a word, or a closure value. -/
inductive PlannedArgument where
  | word (bytes : Word)
  | value
deriving DecidableEq

def PlannedArgument.input : PlannedArgument → CommandArgumentInput
  | .word bytes => .word (some bytes)
  | .value => .closure

/-- The first argument that is the word `--`. -/
def terminatorPosition (arguments : List PlannedArgument) : Option Nat :=
  arguments.findIdx? (· = .word terminatorWord)

def removeOptionTerminator (arguments : List PlannedArgument) : List PlannedArgument :=
  match terminatorPosition arguments with
  | some index => arguments.eraseIdx index
  | none => arguments

/-- What planning hands to the executor, and the argument it took out. -/
structure ArgumentPlan where
  arguments : List PlannedArgument
  removed : Option Nat
deriving DecidableEq

/-- The plan of arguments that passed validation. Help is planned on its own and keeps them all. -/
def planArguments (command : InternalCommand) (arguments : List PlannedArgument) : ArgumentPlan :=
  if command = .help then ⟨arguments, none⟩
  else if command.schema.terminator = .accepted then
    ⟨removeOptionTerminator arguments, terminatorPosition arguments⟩
  else ⟨arguments, none⟩

/-! ## Errors of executors -/

inductive ArgumentError where
  | builtinArity (command : String) (minimum : Nat) (maximum : Option Nat) (actual : Nat)
  | builtinArgument (command message : String)
  | structuredCommand (command message : String)
  | invalidExitCode
deriving DecidableEq

def expectArity (command : InternalCommand) (arguments : List PlannedArgument) (minimum : Nat) (maximum : Option Nat) :
    Except ArgumentError Unit :=
  let actual := arguments.length
  if actual < minimum || maximum.any (· < actual) then .error (.builtinArity command.name minimum maximum actual)
  else .ok ()

def wordArgument (command : InternalCommand) : PlannedArgument → Except ArgumentError Word
  | .word bytes => .ok bytes
  | .value => .error (.builtinArgument command.name "expected a word argument, found a typed value")

def typedValue (command : InternalCommand) : PlannedArgument → Except ArgumentError Unit
  | .value => .ok ()
  | .word _ => .error (.builtinArgument command.name "expected a closure argument")

def utf8Text (command : InternalCommand) (message : String) (bytes : Word) : Except ArgumentError String :=
  match Text.decode bytes with
  | some text => .ok (String.ofList text)
  | none => .error (.builtinArgument command.name message)

def utf8Word (command : InternalCommand) (subject : String) (argument : PlannedArgument) : Except ArgumentError String := do
  utf8Text command (subject ++ " must be valid UTF-8") (← wordArgument command argument)

def utf8Words (command : InternalCommand) (arguments : List PlannedArgument) : Except ArgumentError (List String) :=
  arguments.mapM fun argument => do
    utf8Text command "field names must be valid UTF-8" (← wordArgument command argument)

/-! ## Numbers in arguments -/

def isAsciiDigit (byte : UInt8) : Bool := '0'.toUInt8 ≤ byte && byte ≤ '9'.toUInt8

def digitsValue (digits : List UInt8) : Nat := digits.foldl (fun value digit => 10 * value + (digit - '0'.toUInt8).toNat) 0

/-- A decimal of at most `bits` bits, as digits alone. -/
def parseDigits (bits : Nat) (digits : List UInt8) : Option Nat :=
  if digits ≠ [] ∧ digits.all isAsciiDigit ∧ digitsValue digits < 2 ^ bits then some (digitsValue digits) else none

/-- Unsigned decimals may carry a plus sign. -/
def parseUnsigned (bits : Nat) : List UInt8 → Option Nat
  | first :: rest => if first = '+'.toUInt8 then parseDigits bits rest else parseDigits bits (first :: rest)
  | [] => none

def parseExitCode (bytes : Word) : Except ArgumentError Nat :=
  match parseDigits 8 bytes with
  | some code => .ok code
  | none => .error .invalidExitCode

def optionalCount (command : InternalCommand) (default : Nat) (arguments : List PlannedArgument) : Except ArgumentError Nat :=
  match arguments with
  | [] => .ok default
  | argument :: _ => do
    match parseUnsigned 64 (← wordArgument command argument) with
    | some count => return count
    | none => .error (.builtinArgument command.name "count must be a nonnegative decimal integer")

/-! ## Job targets -/

def jobWord (command : InternalCommand) : PlannedArgument → Except ArgumentError Word
  | .word bytes => .ok bytes
  | .value => .error (.builtinArgument command.name "expected a word job argument, found a typed value")

def parseJobTargetWord (command : InternalCommand) (bytes : Word) : Except ArgumentError Nat :=
  match bytes with
  | first :: digits =>
    if first ≠ '%'.toUInt8 then
      .error (.builtinArgument command.name "job arguments use `%n`, not a bare process or job number")
    else if digits.isEmpty || !digits.all isAsciiDigit then
      .error (.builtinArgument command.name "job identity must contain only ASCII decimal digits")
    else
      match parseDigits 64 digits with
      | none => .error (.builtinArgument command.name "job identity exceeds the supported range")
      | some 0 => .error (.builtinArgument command.name "job identity must be a nonzero decimal number")
      | some job => .ok job
  | [] => .error (.builtinArgument command.name "job arguments use `%n`, not a bare process or job number")

def repeatedJob (command : InternalCommand) (job : Nat) : ArgumentError :=
  .builtinArgument command.name ("job `%" ++ toString job ++ "` is repeated")

def parseJobTargetsFrom (command : InternalCommand) : List PlannedArgument → List Nat → Except ArgumentError (List Nat)
  | [], targets => .ok targets
  | argument :: rest, targets => do
    let job ← parseJobTargetWord command (← jobWord command argument)
    if job ∈ targets then .error (repeatedJob command job) else parseJobTargetsFrom command rest (targets ++ [job])

def parseJobTargets (command : InternalCommand) (arguments : List PlannedArgument) : Except ArgumentError (List Nat) :=
  parseJobTargetsFrom command arguments []

def parseOptionalJobTarget (command : InternalCommand) (arguments : List PlannedArgument) :
    Except ArgumentError (Option Nat) := do
  if 1 < arguments.length then
    .error (.builtinArgument command.name (command.name ++ " accepts at most one job argument"))
  else return (← parseJobTargets command arguments).head?

def validateJobsArguments (arguments : List PlannedArgument) : Except ArgumentError Unit :=
  if arguments.isEmpty then .ok () else .error (.builtinArgument "jobs" "jobs accepts no job arguments")

/-! ## Reading the arguments -/

inductive JobSignal where
  | hangup
  | interrupt
  | terminate
  | kill
  | stop
  | continue
deriving DecidableEq

inductive Codec where
  | utf8 (lossy : Bool)
  | bytes
deriving DecidableEq

/-- What an executor takes from its arguments. -/
inductive ParsedArguments where
  | none
  | path (target : Option Word)
  | names (names : List Word)
  | exitCode (code : Option Nat)
  | codec (codec : Codec)
  | format (name : String) (mode : Option String)
  | count (count : Nat)
  | closure
  | fields (names : List String)
  | replacement (field : String) (text : Option String)
  | targets (targets : List Nat)
  | signal (signal : JobSignal) (targets : List Nat)
  | query (name : Option String)
deriving DecidableEq

/-- How an executor takes an argument. -/
inductive ArgumentRole where
  | positional
  | option
deriving DecidableEq

/-- The roles of the arguments an executor got to, and what it takes from them all. -/
structure ArgumentReading where
  roles : List ArgumentRole
  outcome : Except ArgumentError ParsedArguments

def parseCodec (command : InternalCommand) (allowLossy : Bool) (argument : PlannedArgument) : Except ArgumentError Codec := do
  match ← utf8Word command "codec" argument with
  | "utf8" => return .utf8 false
  | "bytes" => return .bytes
  | other =>
    if other = "utf8-lossy" ∧ allowLossy then return .utf8 true
    else
      let expected := if allowLossy then "`utf8`, `utf8-lossy`, or `bytes`" else "`utf8` or `bytes`"
      .error (.structuredCommand command.name ("unknown codec `" ++ other ++ "`; expected " ++ expected))

def parseFrom (arguments : List PlannedArgument) : Except ArgumentError ParsedArguments := do
  expectArity .fromFormat arguments 1 (some 2)
  let format ← utf8Word .fromFormat "format" (arguments.headD .value)
  if format = "json" then
    match arguments[1]? with
    | none => return .format format none
    | some argument =>
      let mode ← utf8Word .fromFormat "JSON mode" argument
      if mode = "document" ∨ mode = "array" then return .format format (some mode)
      else .error (.structuredCommand "from" ("unknown JSON mode `" ++ mode ++ "`; expected `document` or `array`"))
  else if format = "text" then
    expectArity .fromFormat arguments 1 (some 1)
    return .format format none
  else .error (.structuredCommand "from" ("unknown format `" ++ format ++ "`; expected `json` or `text`"))

def parseTo (arguments : List PlannedArgument) : Except ArgumentError ParsedArguments := do
  expectArity .toFormat arguments 1 (some 1)
  let format ← utf8Word .toFormat "format" (arguments.headD .value)
  if format = "json" ∨ format = "text" then return .format format none
  else .error (.structuredCommand "to" ("unknown format `" ++ format ++ "`; expected `json` or `text`"))

def parseUpdate (arguments : List PlannedArgument) : Except ArgumentError ParsedArguments := do
  expectArity .update arguments 2 (some 2)
  let field ← utf8Text .update "the field name must be valid UTF-8" (← wordArgument .update (arguments.headD .value))
  match (arguments[1]? : Option PlannedArgument) with
  | some (.word bytes) =>
    return .replacement field (some (← utf8Text .update "a static replacement must be valid UTF-8" bytes))
  | _ => return .replacement field none

/-- At most one word, of any content. -/
def parseOptionalWord (command : InternalCommand) (arguments : List PlannedArgument) : Except ArgumentError (Option Word) := do
  expectArity command arguments 0 (some 1)
  match arguments with
  | [] => return none
  | argument :: _ => return some (← wordArgument command argument)

def parseExit (arguments : List PlannedArgument) : Except ArgumentError ParsedArguments := do
  match ← parseOptionalWord .exit arguments with
  | none => return .exitCode none
  | some bytes => return .exitCode (some (← parseExitCode bytes))

def parseNothing (command : InternalCommand) (arguments : List PlannedArgument) : Except ArgumentError ParsedArguments := do
  expectArity command arguments 0 (some 0)
  return .none

def parseCount (command : InternalCommand) (arguments : List PlannedArgument) : Except ArgumentError ParsedArguments := do
  expectArity command arguments 0 (some 1)
  return .count (← optionalCount command 1 arguments)

def parseClosure (command : InternalCommand) (arguments : List PlannedArgument) : Except ArgumentError ParsedArguments := do
  expectArity command arguments 1 (some 1)
  typedValue command (arguments.headD (.word []))
  return .closure

def parseFields (command : InternalCommand) (minimum : Nat) (maximum : Option Nat) (arguments : List PlannedArgument) :
    Except ArgumentError ParsedArguments := do
  expectArity command arguments minimum maximum
  return .fields (← utf8Words command arguments)

def parsePath (command : InternalCommand) (arguments : List PlannedArgument) : Except ArgumentError ParsedArguments := do
  expectArity command arguments 1 (some 1)
  return .path (some (← wordArgument command (arguments.headD .value)))

def parseWhich (arguments : List PlannedArgument) : Except ArgumentError ParsedArguments := do
  expectArity .which arguments 1 none
  return .names (← arguments.mapM (wordArgument .which))

def parseCoded (command : InternalCommand) (allowLossy : Bool) (arguments : List PlannedArgument) :
    Except ArgumentError ParsedArguments := do
  expectArity command arguments 1 (some 1)
  return .codec (← parseCodec command allowLossy (arguments.headD .value))

/-- Help names what it was asked for before anything else of it is planned. -/
def parseHelp (arguments : List PlannedArgument) : Except ArgumentError ParsedArguments :=
  match arguments with
  | [] => .ok (.query none)
  | [.word bytes] => do return .query (some (← utf8Text .help "the optional name must be UTF-8 source text" bytes))
  | [.value] => .error (.builtinArgument "help" "the optional name must be one static source word")
  | _ => .error (.builtinArity "help" 0 (some 1) arguments.length)

/-- The words that select a signal. -/
def killSelectors : List Word := killSignalNames.map fun name => Text.bytes name.toList

def selectedSignal (selector : Option Word) : JobSignal :=
  if selector = some (Text.bytes "--hangup".toList) then .hangup
  else if selector = some (Text.bytes "--interrupt".toList) then .interrupt
  else if selector = some (Text.bytes "--kill".toList) then .kill
  else if selector = some (Text.bytes "--stop".toList) then .stop
  else if selector = some (Text.bytes "--continue".toList) then .continue
  else .terminate

/-- The loop over the arguments of `kill`: a word that starts like an option is taken for one. -/
def parseKillFrom : List PlannedArgument → (selector : Option Word) → (targetsStarted : Bool) → (targets : List Nat) →
    ArgumentReading
  | [], selector, _, targets =>
    if targets = [] then ⟨[], .error (.builtinArgument "kill" "kill requires at least one explicit `%n` target")⟩
    else ⟨[], .ok (.signal (selectedSignal selector) targets)⟩
  | .value :: _, _, _, _ =>
    ⟨[], .error (.builtinArgument "kill" "expected a word job argument, found a typed value")⟩
  | .word bytes :: rest, selector, targetsStarted, targets =>
    if terminatorWord.isPrefixOf bytes then
      if targetsStarted then
        ⟨[.option], .error (.builtinArgument "kill" "a signal selector must precede every job argument")⟩
      else if bytes ∉ killSelectors then
        ⟨[.option], .error (.builtinArgument "kill" ("unknown signal selector `" ++ fromUtf8Lossy bytes ++ "`"))⟩
      else if selector.isSome then
        ⟨[.option], .error (.builtinArgument "kill" "kill accepts only one signal selector")⟩
      else
        let later := parseKillFrom rest (some bytes) targetsStarted targets
        ⟨.option :: later.roles, later.outcome⟩
    else
      match parseJobTargetWord .kill bytes with
      | .error error => ⟨[.positional], .error error⟩
      | .ok job =>
        if job ∈ targets then ⟨[.positional], .error (repeatedJob .kill job)⟩
        else
          let later := parseKillFrom rest selector true (targets ++ [job])
          ⟨.positional :: later.roles, later.outcome⟩

def parseKillArguments (arguments : List PlannedArgument) : ArgumentReading := parseKillFrom arguments none false []

/-- Executors without options take every argument by its place. -/
def byPlace (arguments : List PlannedArgument) (outcome : Except ArgumentError ParsedArguments) : ArgumentReading :=
  ⟨arguments.map fun _ => .positional, outcome⟩

/-- What the executor of a command makes of its planned arguments. -/
def readArguments (command : InternalCommand) (arguments : List PlannedArgument) : ArgumentReading :=
  match command with
  | .cd => byPlace arguments (do return .path (← parseOptionalWord .cd arguments))
  | .pwd => byPlace arguments (parseNothing .pwd arguments)
  | .which => byPlace arguments (parseWhich arguments)
  | .exit => byPlace arguments (parseExit arguments)
  | .check => byPlace arguments (parseNothing .check arguments)
  | .decode => byPlace arguments (parseCoded .decode true arguments)
  | .fromFormat => byPlace arguments (parseFrom arguments)
  | .encode => byPlace arguments (parseCoded .encode false arguments)
  | .toFormat => byPlace arguments (parseTo arguments)
  | .first => byPlace arguments (parseCount .first arguments)
  | .last => byPlace arguments (parseCount .last arguments)
  | .collect => byPlace arguments (parseNothing .collect arguments)
  | .length => byPlace arguments (parseNothing .length arguments)
  | .lines => byPlace arguments (parseNothing .lines arguments)
  | .each => byPlace arguments (parseClosure .each arguments)
  | .whereValues => byPlace arguments (parseClosure .whereValues arguments)
  | .select => byPlace arguments (parseFields .select 1 none arguments)
  | .get => byPlace arguments (parseFields .get 1 (some 1) arguments)
  | .update => byPlace arguments (parseUpdate arguments)
  | .sort => byPlace arguments (parseFields .sort 0 (some 1) arguments)
  | .ls => byPlace arguments (do return .path (← parseOptionalWord .ls arguments))
  | .openFile => byPlace arguments (parsePath .openFile arguments)
  | .save => byPlace arguments (parsePath .save arguments)
  | .jobs => byPlace arguments (do validateJobsArguments arguments; return .none)
  | .fg => byPlace arguments (do return .targets (← parseOptionalJobTarget .fg arguments).toList)
  | .bg => byPlace arguments (do return .targets (← parseOptionalJobTarget .bg arguments).toList)
  | .wait => byPlace arguments (do return .targets (← parseJobTargets .wait arguments))
  | .kill => parseKillArguments arguments
  | .help => byPlace arguments (parseHelp arguments)

end Opaal.Runtime.Command
