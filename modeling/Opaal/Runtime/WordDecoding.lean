import Opaal.Machine.Outcome
import Opaal.Number.Digits
import Opaal.Runtime.Budget
import Opaal.Syntax.Parser.Statements
import Opaal.Text.Decode

/-!
# Two decoders of words

The checks of a module read a word as a static text; the evaluator expands it to native
units.  Both go over the parts of the word with tables of their own.
-/

namespace Opaal.Runtime

open Opaal.Machine List
open Opaal.Number
open Opaal.Syntax
open Opaal.Text (bytes width tailAt headAt sliceAt bytes_append)

/-! ## Escapes -/

/-- `u32::from_str_radix` in radix sixteen -/
def fromStrRadix (text : List Char) : Option Nat :=
  let digits := withoutSign text
  if digits ≠ [] ∧ digits.all (isDigitOf 16) ∧ digitsValue 16 digits < 2 ^ 32 then some (digitsValue 16 digits) else none

/-- `char::from_u32` -/
def charFromU32 (number : Nat) : Option Char := if number.isValidChar then some (Char.ofNat number) else none

/-- An escape without its backslash; nothing where there is no such text. -/
def decodeEscapeBody (body : List Char) : Option (List Char) :=
  match body with
  | [] => none
  | '\\' :: _ => some ['\\']
  | '"' :: _ => some ['"']
  | 'n' :: _ => some ['\n']
  | 'r' :: _ => some ['\r']
  | 't' :: _ => some ['\t']
  | '0' :: _ => some [Char.ofNat 0]
  | 'u' :: _ =>
    let hex := (body.dropWhile (· == 'u')).dropWhile (· == '\x7b')
    match (fromStrRadix (hex.reverse.dropWhile (· == '\x7d')).reverse).bind charFromU32 with
    | some scalar => some [scalar]
    | none => some body
  | _ => some body

/-- The evaluator's table; nothing where it panics. -/
def decodeDoubleEscape (raw : List Char) : Option (List Char) := (tailAt raw 1).bind decodeEscapeBody

def isLineContinuation (raw : List Char) : Bool := raw == ['\\', '\n'] || raw == ['\\', '\r', '\n']

def decodeStaticDoubleEscape (raw : List Char) : Option (List Char) :=
  if isLineContinuation raw then some [] else (tailAt raw 1).bind decodeEscapeBody

/-! ## Static texts -/

/-- Why a word has no static text: it interpolates, or the decoder panics. -/
inductive StaticStop where
  | interpolated
  | panicked
deriving DecidableEq

def sliceOf {ε : Type} (panicked : ε) (slice : Option (List Char)) : Except ε (List Char) :=
  match slice with
  | some text => .ok text
  | none => .error panicked

section Words

variable (source : SourceFile)

/-- The text under a span of a parsed tree. -/
def spanText (span : source.Region) : Option (List Char) := (source.slice span.toSpan).toOption

mutual

def appendStaticPart : WordPart source.Region → List Char → Except StaticStop (List Char)
  | .mk (.doubleQuoted inner) _, text => appendStaticParts inner text
  | .mk (.interpolation _) _, _ => .error .interpolated
  | .mk .bare span, text | .mk .doubleText span, text => return text ++ (← sliceOf .panicked (spanText source span))
  | .mk .singleQuoted span, text => do
    let raw ← sliceOf .panicked (spanText source span)
    return text ++ (← sliceOf .panicked (sliceAt raw 1 (width raw - 1)))
  | .mk .bareEscape span, text => do
    let raw ← sliceOf .panicked (spanText source span)
    return text ++ (← sliceOf .panicked (tailAt raw 1))
  | .mk .doubleEscape span, text => do
    let raw ← sliceOf .panicked (spanText source span)
    return text ++ (← sliceOf .panicked (decodeStaticDoubleEscape raw))
  | .mk .escapedBrace span, text => do
    let raw ← sliceOf .panicked (spanText source span)
    return text ++ (← sliceOf .panicked (headAt raw 1))

def appendStaticParts : List (WordPart source.Region) → List Char → Except StaticStop (List Char)
  | [], text => .ok text
  | part :: parts, text => do
    let text ← appendStaticPart part text
    appendStaticParts parts text

end

/-- The static text of a word, none where it interpolates; `none` outside is a panic. -/
def staticWordText : Word source.Region → Option (Option (List Char))
  | .mk parts _ =>
    match appendStaticParts source parts [] with
    | .ok text => some (some text)
    | .error .interpolated => some none
    | .error .panicked => none

/-! ## Expansion -/

/-- What an expansion changes: the evaluator's own state, its budget, the native units and
the spans that gave some. -/
structure Expanding (ω : Type) (source : SourceFile) where
  world : ω
  budget : ResourceBudget
  value : List UInt8
  provenance : List source.Region

inductive ExpandAbort (ε : Type) (source : SourceFile) where
  | resourceBudgetExceeded (span : source.Region)
  | raised (error : ε)
  | panicked

abbrev Expand (ω ε : Type) (source : SourceFile) := Action Unit (ExpandAbort ε source) (Expanding ω source)

/-- An expression that is evaluated and encoded as native units. -/
abbrev Interpolate (ω ε : Type) (source : SourceFile) :=
  Expression source.Region → source.Region → Expand ω ε source (List UInt8)

variable {source} {ω ε : Type}

def spend (charge : ResourceBudget → Option ResourceBudget) (span : source.Region) : Expand ω ε source Unit := do
  let state ← get
  match charge state.budget with
  | some budget => set { state with budget }
  | none => throw (.resourceBudgetExceeded span)

def Expand.retainCollectionBytes (amount : Nat) (span : source.Region) : Expand ω ε source Unit :=
  spend (ResourceBudget.chargeCollectionBytes amount) span

def sliced (slice : Option (List Char)) : Expand ω ε source (List Char) :=
  match slice with
  | some text => pure text
  | none => throw .panicked

def pushUnits (units : List UInt8) : Expand ω ε source Unit :=
  modify fun state => { state with value := state.value ++ units }

variable (source) (interpolate : Interpolate ω ε source)

/-- A part that is not a container. -/
def pushPart (kind : WordPartKind source.Region) (span : source.Region) : Expand ω ε source Unit :=
  match kind with
  | .bare | .doubleText => do
    let raw ← sliced (spanText source span)
    .retainCollectionBytes (width raw) span
    pushUnits (bytes raw)
  | .singleQuoted => do
    let raw ← sliced (spanText source span)
    .retainCollectionBytes (width raw - 2) span
    pushUnits (bytes (← sliced (sliceAt raw 1 (width raw - 1))))
  | .bareEscape => do
    let raw ← sliced (spanText source span)
    .retainCollectionBytes (width raw - 1) span
    pushUnits (bytes (← sliced (tailAt raw 1)))
  | .doubleEscape => do
    let decoded ← sliced ((spanText source span).bind decodeDoubleEscape)
    .retainCollectionBytes (width decoded) span
    pushUnits (bytes decoded)
  | .escapedBrace => do
    .retainCollectionBytes 1 span
    let raw ← sliced (spanText source span)
    pushUnits (bytes (← sliced (headAt raw 1)))
  | .interpolation expression => do pushUnits (← interpolate expression span)
  | .doubleQuoted _ => throw .panicked

/-- A part with its span recorded where it gave at least one unit. -/
def recordPart (kind : WordPartKind source.Region) (span : source.Region) : Expand ω ε source Unit := do
  let before := (← get).value.length
  pushPart source interpolate kind span
  modify fun state => if state.value.length ≠ before then { state with provenance := state.provenance ++ [span] } else state

mutual

def expandPart : WordPart source.Region → Expand ω ε source Unit
  | .mk (.doubleQuoted inner) span => do
    spend ResourceBudget.charge span
    expandParts inner
  | .mk kind span => do
    spend ResourceBudget.charge span
    recordPart source interpolate kind span

def expandParts : List (WordPart source.Region) → Expand ω ε source Unit
  | [] => pure ()
  | part :: parts => do
    expandPart part
    expandParts parts

end

structure ExpandedWord (source : SourceFile) where
  value : List UInt8
  span : source.Region
  parts : List source.Region

/-- Expands a word from no units. -/
def expandWord : Word source.Region → Expand ω ε source (ExpandedWord source)
  | .mk parts span => do
    modify fun state => { state with value := [], provenance := [] }
    expandParts source interpolate parts
    let state ← get
    return ⟨state.value, span, state.provenance⟩

end Words

/-! ## What the two decoders make of a part -/

section Parts

variable (source : SourceFile)

mutual

/-- A part is interpolated, or one of its own parts is. -/
def partInterpolates : WordPart source.Region → Bool
  | .mk (.doubleQuoted inner) _ => partsInterpolate inner
  | .mk (.interpolation _) _ => true
  | .mk _ _ => false

def partsInterpolate : List (WordPart source.Region) → Bool
  | [] => false
  | part :: parts => partInterpolates part || partsInterpolate parts

end

mutual

/-- A part holds a backslash before the end of a line, in double quotes. -/
def partContinues : WordPart source.Region → Bool
  | .mk (.doubleQuoted inner) _ => partsContinue inner
  | .mk .doubleEscape span => (spanText source span).any isLineContinuation
  | .mk _ _ => false

def partsContinue : List (WordPart source.Region) → Bool
  | [] => false
  | part :: parts => partContinues part || partsContinue parts

end

def wordInterpolates : Word source.Region → Bool
  | .mk parts _ => partsInterpolate source parts

def wordContinues : Word source.Region → Bool
  | .mk parts _ => partsContinue source parts

end Parts

/-- A static text beside the native units of the same parts: fewer where a line is
continued, and the same elsewhere. -/
structure Decodes (continues : Bool) (text : List Char) (units : List UInt8) : Prop where
  ordered : (bytes text).length ≤ units.length
  exact : continues = false → units = bytes text
  shorter : continues = true → (bytes text).length < units.length

theorem Decodes.same (text : List Char) : Decodes false text (bytes text) := ⟨Nat.le_refl _, fun _ => rfl, nofun⟩

theorem Decodes.append {first second : Bool} {text text' : List Char} {units units' : List UInt8}
    (one : Decodes first text units) (two : Decodes second text' units') :
    Decodes (first || second) (text ++ text') (units ++ units') := by
  have ordered := one.ordered
  have ordered' := two.ordered
  constructor
  · rw [bytes_append, length_append, length_append]
    omega
  · intro none
    rw [Bool.or_eq_false_iff] at none
    rw [bytes_append, one.exact none.1, two.exact none.2]
  · intro some
    rw [bytes_append, length_append, length_append]
    rcases Bool.or_eq_true_iff.mp some with here | there
    · have shorter := one.shorter here
      omega
    · have shorter := two.shorter there
      omega

theorem Decodes.iff {continues : Bool} {text : List Char} {units : List UInt8} (decodes : Decodes continues text units) :
    units = bytes text ↔ continues = false := by
  refine ⟨fun same => ?_, decodes.exact⟩
  cases continues with
  | false => rfl
  | true =>
    have shorter := decodes.shorter rfl
    rw [same] at shorter
    exact absurd shorter (Nat.lt_irrefl _)

/-- Apart from continued lines the tables are one. -/
theorem decodeDoubleEscape_decodes {raw decoded : List Char} (result : decodeDoubleEscape raw = some decoded) :
    ∃ text, decodeStaticDoubleEscape raw = some text ∧ Decodes (isLineContinuation raw) text (bytes decoded) := by
  unfold decodeStaticDoubleEscape
  cases continued : isLineContinuation raw with
  | false => exact ⟨decoded, result, .same decoded⟩
  | true =>
    refine ⟨[], rfl, Nat.zero_le _, nofun, fun _ => ?_⟩
    have lines : raw = ['\\', '\n'] ∨ raw = ['\\', '\r', '\n'] := by simpa [isLineContinuation] using continued
    rcases lines with rfl | rfl <;> cases result <;> decide

section Agreement

variable {source : SourceFile} {ω ε : Type} {interpolate : Interpolate ω ε source} {value : List UInt8}

/-- A step of an expansion of parts whose static text is added to a text in `statically`:
what it adds to the units is decoded from what is added to the text. -/
abbrev Adds (continues : Bool) (statically : List Char → Except StaticStop (List Char)) (expansion : Expand ω ε source Unit)
    (value : List UInt8) : Prop :=
  Yields Expanding.value expansion () value (fun _ _ => True) fun _ after =>
    ∃ text units, (∀ before, statically before = .ok (before ++ text)) ∧ after = value ++ units ∧ Decodes continues text units

variable {charge : ResourceBudget → Option ResourceBudget} {span : source.Region} {slice : Option (List Char)}
  {continues : Bool} {statically : List Char → Except StaticStop (List Char)} {kind : WordPartKind source.Region}

theorem spend_yields :
    Yields Expanding.value (spend charge span : Expand ω ε source Unit) () value (fun _ _ => True) fun _ after =>
      after = value := by
  intro state same
  have result : (spend charge span : Expand ω ε source Unit) () state = (match charge state.budget with
      | some budget => set { state with budget }
      | none => throw (.resourceBudgetExceeded span) : Expand ω ε source Unit) () state := rfl
  rw [result]
  cases charge state.budget with
  | some => exact same
  | none => trivial

theorem sliced_yields :
    Yields Expanding.value (sliced slice : Expand ω ε source (List Char)) () value (fun _ _ => True) fun text after =>
      slice = some text ∧ after = value := by
  cases slice with
  | some => exact .pure ⟨rfl, rfl⟩
  | none => exact .throw trivial

theorem pushUnits_yields {units : List UInt8} :
    Yields Expanding.value (pushUnits units : Expand ω ε source Unit) () value (fun _ _ => True) fun _ after =>
      after = value ++ units := by
  intro state same
  show state.value ++ units = value ++ units
  rw [same]

theorem Adds.push {text : List Char} {units : List UInt8} (static : ∀ before, statically before = .ok (before ++ text))
    (decodes : Decodes continues text units) :
    Adds continues statically (pushUnits units : Expand ω ε source Unit) value := by
  refine pushUnits_yields.mono ?_ fun _ _ failed => failed
  rintro _ _ rfl
  exact ⟨text, units, static, rfl, decodes⟩

/-- What a step leaves the units as they are, the rest may add to them. -/
theorem Adds.after {α : Type} {first : Expand ω ε source α} {rest : α → Expand ω ε source Unit} {known : α → Prop}
    (step : Yields Expanding.value first () value (fun _ _ => True) fun result after => known result ∧ after = value)
    (adds : ∀ result, known result → Adds continues statically (rest result) value) :
    Adds continues statically (first >>= rest) value := by
  refine .bind step ?_
  rintro result _ ⟨known, rfl⟩
  exact adds result known

theorem Adds.spend {rest : Unit → Expand ω ε source Unit} (adds : Adds continues statically (rest ()) value) :
    Adds continues statically (Runtime.spend charge span >>= rest) value :=
  .step spend_yields fun _ => adds

theorem sliceOf_some {text : List Char} (read : slice = some text) :
    sliceOf StaticStop.panicked slice = .ok text := by
  rw [read]
  rfl

section

variable (plain : partInterpolates source (.mk kind span) = false) (leaf : ∀ inner, kind ≠ .doubleQuoted inner)
include plain leaf

/-- A part that is neither a container nor interpolated. -/
theorem pushPart_adds :
    Adds (partContinues source (.mk kind span)) (appendStaticPart source (.mk kind span)) (pushPart source interpolate kind span)
      value := by
  cases kind with
  | doubleQuoted inner => exact absurd rfl (leaf inner)
  | interpolation => exact absurd plain Bool.noConfusion
  | bare | doubleText =>
    refine .after sliced_yields fun raw read => .spend (.push (fun before => ?_) (.same raw))
    simp [appendStaticPart, sliceOf_some read, bind, Except.bind, pure, Except.pure]
  | singleQuoted | bareEscape =>
    refine .after sliced_yields fun raw read => .spend (.after sliced_yields fun text inner => ?_)
    refine .push (fun before => ?_) (.same text)
    simp [appendStaticPart, sliceOf_some read, sliceOf_some inner, bind, Except.bind, pure, Except.pure]
  | doubleEscape =>
    refine .after sliced_yields fun decoded read => ?_
    obtain ⟨raw, spelled, result⟩ := Option.bind_eq_some_iff.mp read
    obtain ⟨text, static, decodes⟩ := decodeDoubleEscape_decodes result
    have continues : partContinues source (.mk .doubleEscape span) = isLineContinuation raw := by
      rw [partContinues, spelled, Option.any_some]
    rw [continues]
    refine Adds.spend (Adds.push (fun before => ?_) decodes)
    simp [appendStaticPart, sliceOf_some spelled, sliceOf_some static, bind, Except.bind, pure, Except.pure]
  | escapedBrace =>
    refine Adds.spend (Adds.after sliced_yields fun raw read => Adds.after sliced_yields fun text inner => ?_)
    refine .push (fun before => ?_) (.same text)
    simp [appendStaticPart, sliceOf_some read, sliceOf_some inner, bind, Except.bind, pure, Except.pure]

theorem recordPart_adds :
    Adds (partContinues source (.mk kind span)) (appendStaticPart source (.mk kind span)) (recordPart source interpolate kind span)
      value := by
  have read : Yields Expanding.value (get : Expand ω ε source (Expanding ω source)) () value (fun _ _ => True)
      fun _ after => True ∧ after = value := fun state same => ⟨trivial, same⟩
  refine .after read fun _ _ => .bind (pushPart_adds plain leaf) ?_
  rintro _ _ ⟨text, units, static, rfl, decodes⟩
  intro state same
  refine ⟨text, units, static, ?_, decodes⟩
  show (if _ then _ else _ : Expanding ω source).value = _
  split
  · exact same
  · exact same

end

mutual

theorem expandPart_adds (part : WordPart source.Region) (plain : partInterpolates source part = false) (value : List UInt8) :
    Adds (partContinues source part) (appendStaticPart source part) (expandPart source interpolate part) value := by
  obtain ⟨kind, _⟩ := part
  cases kind with
  | doubleQuoted inner => exact Adds.spend (expandParts_adds inner plain value)
  | interpolation => exact absurd plain Bool.noConfusion
  | bare | doubleText | singleQuoted | bareEscape | doubleEscape | escapedBrace =>
    exact Adds.spend (recordPart_adds plain nofun)

theorem expandParts_adds (parts : List (WordPart source.Region)) (plain : partsInterpolate source parts = false)
    (value : List UInt8) :
    Adds (partsContinue source parts) (appendStaticParts source parts) (expandParts source interpolate parts) value := by
  cases parts with
  | nil =>
    refine .pure ⟨[], [], fun before => ?_, (append_nil value).symm, .same []⟩
    rw [appendStaticParts, append_nil]
  | cons part parts =>
    rw [partsInterpolate, Bool.or_eq_false_iff] at plain
    refine .bind (expandPart_adds part plain.1 value) ?_
    rintro _ _ ⟨text, units, static, rfl, decodes⟩
    refine (expandParts_adds parts plain.2 (value ++ units)).mono ?_ fun _ _ failed => failed
    rintro _ _ ⟨text', units', static', rfl, decodes'⟩
    refine ⟨text ++ text', units ++ units', fun before => ?_, append_assoc _ _ _, decodes.append decodes'⟩
    rw [appendStaticParts, static before]
    show appendStaticParts source parts (before ++ text) = _
    rw [static', append_assoc]

end

/-- A plain word that is expanded has a static text, from which its units are decoded. -/
theorem expandWord_decodes {word : Word source.Region} (plain : wordInterpolates source word = false)
    {expanded : ExpandedWord source} {state after : Expanding ω source}
    (ran : expandWord source interpolate word () state = .ok expanded after) :
    ∃ text, staticWordText source word = some (some text) ∧ Decodes (wordContinues source word) text expanded.value := by
  obtain ⟨parts, span⟩ := word
  have adds : Adds _ _ (expandParts source interpolate parts) [] := expandParts_adds parts plain []
  have yields : Yields Expanding.value (expandWord source interpolate (.mk parts span)) () state.value (fun _ _ => True)
      fun expanded _ => ∃ text units, (∀ before, appendStaticParts source parts before = .ok (before ++ text)) ∧
        expanded.value = [] ++ units ∧ Decodes (partsContinue source parts) text units := by
    have cleared : Yields Expanding.value (modify fun state => { state with value := [], provenance := [] } : Expand ω ε source Unit)
        () state.value (fun _ _ => True) fun _ after => after = [] := fun _ _ => rfl
    refine .step cleared fun _ => .bind adds ?_
    rintro _ after decoded current rfl
    exact decoded
  have outcome := yields state rfl
  rw [ran] at outcome
  obtain ⟨text, _, static, grown, decodes⟩ := outcome
  refine ⟨text, ?_, ?_⟩
  · rw [staticWordText, static]
    rfl
  · rw [grown]
    exact decodes

/-- The two decoders agree on a plain word that is expanded exactly when no line is continued in its
double quotes. -/
theorem staticWordText_agrees_iff (source : SourceFile) (interpolate : Interpolate ω ε source) (word : Word source.Region)
    (plain : wordInterpolates source word = false) (expanded : ExpandedWord source) (state after : Expanding ω source)
    (ran : expandWord source interpolate word () state = .ok expanded after) :
    (∃ text, staticWordText source word = some (some text) ∧ expanded.value = bytes text) ↔ wordContinues source word = false := by
  obtain ⟨text, static, decodes⟩ := expandWord_decodes plain ran
  refine .trans ⟨?_, fun same => ⟨text, static, same⟩⟩ decodes.iff
  rintro ⟨_, static', same⟩
  rw [static] at static'
  cases static'
  exact same

end Agreement

/-! ## Parsed words -/

/-- The word that the parser reads at the start of a source. -/
def parsedWord (source : SourceFile) : Option (Word source.Region) := do
  let tokens ← lexOpaal source
  let placed ← (tokens.mapM (Token.placed source)).toOption
  let input : ParserInput source := ⟨placed, fun _ => false⟩
  match Parser.parseWord (Parser.grammarOf (placed.length + 1)) input (Parser.new input) with
  | .ok word _ => some word
  | .error _ _ => none

/-- A word of two letters with a continued line between them. -/
def continuedWord : SourceFile := ⟨0, ['"', 'a', '\\', '\n', 'b', '"']⟩

/-- Before a word with no limit. -/
def unlimitedExpanding (source : SourceFile) : Expanding Unit source := ⟨(), .unlimited, [], []⟩

/-- An evaluator that is never called for a plain word. -/
def uncalled (source : SourceFile) : Interpolate Unit Empty source := fun _ _ => throw .panicked

def expandsPlainly (source : SourceFile) (word : Word source.Region) : Bool :=
  !wordInterpolates source word &&
    match expandWord source (uncalled source) word () (unlimitedExpanding source) with
    | .ok _ _ => true
    | .error _ _ => false

theorem expandsPlainly_iff {source : SourceFile} {word : Word source.Region} (expands : expandsPlainly source word = true) :
    wordInterpolates source word = false ∧
      ∃ expanded after, expandWord source (uncalled source) word () (unlimitedExpanding source) = .ok expanded after := by
  rw [expandsPlainly, Bool.and_eq_true, Bool.not_eq_true'] at expands
  obtain ⟨plain, returned⟩ := expands
  cases ran : expandWord source (uncalled source) word () (unlimitedExpanding source) with
  | ok expanded after => exact ⟨plain, expanded, after, rfl⟩
  | error =>
    rw [ran] at returned
    cases returned

theorem continuedWord_parsed : ∃ word, parsedWord continuedWord = some word ∧ expandsPlainly continuedWord word = true ∧
    wordContinues continuedWord word = true := by
  have parsed : (parsedWord continuedWord).any (fun word =>
      expandsPlainly continuedWord word && wordContinues continuedWord word) = true := by decide +kernel
  obtain ⟨word, found, holds⟩ := (Option.any_eq_true _ _).mp parsed
  rw [Bool.and_eq_true] at holds
  exact ⟨word, found, holds⟩

theorem continuedWord_agreement : ∃ word, parsedWord continuedWord = some word ∧ ∃ expanded : ExpandedWord continuedWord,
    ((∃ text, staticWordText continuedWord word = some (some text) ∧ expanded.value = bytes text) ↔
      wordContinues continuedWord word = false) := by
  obtain ⟨word, parsed, expands, _⟩ := continuedWord_parsed
  obtain ⟨plain, expanded, after, ran⟩ := expandsPlainly_iff expands
  exact ⟨word, parsed, expanded, staticWordText_agrees_iff continuedWord (uncalled _) word plain expanded _ after ran⟩

/-- A static text leaves out the continued line that the evaluator keeps as a line break. -/
theorem continuedWord_decoded_apart :
    ¬ ∀ (source : SourceFile) (word : Word source.Region), parsedWord source = some word → wordInterpolates source word = false →
      ∀ expanded after, expandWord source (uncalled source) word () (unlimitedExpanding source) = .ok expanded after →
        ∃ text, staticWordText source word = some (some text) ∧ expanded.value = bytes text := by
  intro agree
  obtain ⟨word, parsed, expands, continues⟩ := continuedWord_parsed
  obtain ⟨plain, expanded, after, ran⟩ := expandsPlainly_iff expands
  obtain ⟨_, static, same⟩ := agree continuedWord word parsed plain expanded after ran
  obtain ⟨_, static', decodes⟩ := expandWord_decodes plain ran
  rw [static] at static'
  cases static'
  have whole := decodes.iff.mp same
  rw [continues] at whole
  cases whole

end Opaal.Runtime
