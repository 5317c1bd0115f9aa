import Opaal.Syntax.Parser.Progress

/-!
# Names, type references and patterns keep the order

`Ready` says of the rules a grammar is entered by what the rules below prove of
themselves, for every state past a position.
-/

namespace Opaal.Syntax.Parser

open Opaal.Machine
open Opaal.Text Mirrors

variable {source : SourceFile} {input : ParserInput source} {alike : Alike input} {parser : Parser source}

/-! ## Looking ahead -/

variable {skipped : TokenKind → Bool} {position : Nat} {first second third : Parser source}
  {binding : Option (Identifier source.Region)}

theorem nextUnskipped_found {found : Nat} {left : List (PlacedToken source)}
    (next : nextUnskipped skipped position left = some found) :
    position ≤ found ∧ (∃ token, left[found - position]? = some token ∧ skipped token.kind = false) ∧
      ∀ index, position ≤ index → index < found → (left[index - position]?.map (·.kind)).any skipped = true := by
  induction left generalizing position with
  | nil => cases next
  | cons token more ih =>
    unfold nextUnskipped at next
    split at next
    · next accepted =>
      obtain ⟨ordered, ⟨there, isThere, stops⟩, between⟩ := ih next
      refine ⟨by omega, ⟨there, ?_, stops⟩, ?_⟩
      · have shift : found - position = found - (position + 1) + 1 := by omega
        rw [shift, List.getElem?_cons_succ]
        exact isThere
      · intro index from_ upto
        rcases Nat.eq_or_lt_of_le from_ with rfl | after
        · simpa using accepted
        · have shift : index - position = index - (position + 1) + 1 := by omega
          rw [shift, List.getElem?_cons_succ]
          exact between index after upto
    · next stops =>
      cases next
      refine ⟨Nat.le_refl _, ⟨token, by simp, by simpa using stops⟩, ?_⟩
      intro index from_ upto
      omega

/-- A position found ahead holds a token that is not skipped, after tokens that are. -/
theorem nextUnskipped_ahead {found : Nat} (next : nextUnskipped skipped position (input.tokens.drop position) = some found) :
    position ≤ found ∧ (∃ token, input.tokens[found]? = some token ∧ skipped token.kind = false) ∧
      ∀ index, position ≤ index → index < found → (input.tokens[index]?.map (·.kind)).any skipped = true := by
  obtain ⟨ordered, ⟨token, there, stops⟩, between⟩ := nextUnskipped_found next
  rw [List.getElem?_drop] at there
  refine ⟨ordered, ⟨token, ?_, stops⟩, ?_⟩
  · rwa [Nat.add_sub_cancel' ordered] at there
  · intro index from_ upto
    have passed := between index from_ upto
    rwa [List.getElem?_drop, Nat.add_sub_cancel' from_] at passed

theorem tokenIndexed_answers {token : PlacedToken source} (there : input.tokens[position]? = some token) :
    Answers alike (tokenIndexed position) parser (· = token) := by
  refine .reads rfl rfl ?_
  rw [there]
  exact .pure rfl

theorem atShorthandEnd_answers : Answers alike atShorthandEnd parser fun _ => True := by
  refine .reads rfl rfl (.reads rfl rfl ?_)
  split
  · next position found =>
    obtain ⟨_, ⟨_, there, _⟩, _⟩ := nextUnskipped_ahead found
    refine .bind (tokenIndexed_answers there) ?_
    intro _ _
    exact .pure trivial
  · exact .pure trivial

/-! ## Names -/

theorem parseIdentifier_takes : Takes alike (parser.position < input.tokens.length) parseIdentifier parseIdentifier parser
    fun name after => Parsed input parser name.span after ∧ Skips input (· == .identifier) parser after ∧
      after.position = parser.position + 1 := by
  refine .bind take_takes ?_
  rintro (_ | token) after _ took
  · exact incompleteHere_parses
  · dsimp only
    split
    · next named => exact .pure ⟨took.toParsed, took.skips named, took.position⟩
    · exact invalidAt_parses

theorem parseIdentifier_parses : Parses alike parseIdentifier parser fun name after =>
    Parsed input parser name.span after ∧ Skips input (· == .identifier) parser after ∧
      after.position = parser.position + 1 :=
  parseIdentifier_takes.mirrors

theorem parseNameReference_parses : Parses alike parseNameReference parser fun reference after =>
    Parsed input parser reference.span after ∧ reference.name.span = reference.span ∧
      after.position = parser.position + 1 := by
  refine parseIdentifier_parses.bind ?_
  rintro name after _ ⟨parsed, _, position⟩
  exact .pure ⟨parsed, rfl, position⟩

/-- The tokens a type reference is made of: no call starts among them. -/
def isPlain (kind : TokenKind) : Bool := kind != .delimiter .leftParenthesis

/-- Tokens of kinds that exclude a parenthesis are plain. -/
theorem Skips.plain {accepts : TokenKind → Bool} (skips : Skips input accepts first second)
    (narrow : accepts (.delimiter .leftParenthesis) = false) :
    Skips input isPlain first second := by
  refine skips.mono ?_
  intro kind accepted
  unfold isPlain
  rw [bne_iff_ne]
  rintro rfl
  rw [narrow] at accepted
  cases accepted

theorem Skipped.plain {depth : Nat} (skipped : Skipped input (isInlineIn depth) first second) : Skips input isPlain first second :=
  skipped.skips.plain (by simp [isInlineIn, isInline])

/-- Going back to where the rule was entered. -/
theorem restore_ends {α : Type} {origin : Parser source} {value : α} {post : α → Parser source → Prop}
    (reached : Later input origin parser) (depth : parser.continuationDepth = origin.continuationDepth)
    (holds : post value { parser with position := origin.position }) :
    FollowsFrom alike.comparison origin (do restore origin.position; return value)
      (do restore origin.position; return value) parser post := by
  refine .of_eq rfl rfl (Nat.le_refl _) ?_ holds
  exact ⟨Nat.le_refl _, Nat.le_refl _, id, Nat.le_of_eq depth.symm, reached.condition, reached.chain,
    reached.brackets, reached.polls⟩

/-- A path separator, or the position as it was. -/
theorem takePathSeparator_parses : Parses alike takePathSeparator parser fun found after =>
    match found with
    | true => parser.position < after.position ∧ Skips input isPlain parser after
    | false => after.position = parser.position := by
  refine reads rfl rfl ?_
  refine FollowsFrom.bind (Later.refl parser) skipInline_parses ?_
  intro _ skipped later gap
  refine FollowsFrom.bind later takeIf_parses ?_
  rintro (_ | first) middle stepped took
  · obtain rfl : middle = skipped := took
    exact restore_ends later gap.continuation rfl
  have later := Later.trans later stepped
  refine FollowsFrom.bind later takeIf_parses ?_
  rintro (_ | second) last stepped' took'
  · obtain rfl : last = middle := took'
    exact restore_ends later (took.continuation.trans gap.continuation) rfl
  refine FollowsFrom.of_follows (Later.trans later stepped') (Parses.pure ?_)
  have colons : Skips input (· == .operator .colon) skipped last :=
    took.passes.trans took'.passes
  exact ⟨by grind, gap.plain.trans (colons.plain rfl)⟩

theorem parseQualifiedName_takes : Takes alike (parser.position < input.tokens.length) parseQualifiedName parseQualifiedName
    parser fun name after => Parsed input parser name.span after ∧ Skips input isPlain parser after ∧
      (∀ segment ∈ name.segments, name.span.start ≤ segment.span.start ∧ segment.span.stop ≤ name.span.stop) := by
  refine .bind parseIdentifier_takes ?_
  rintro first named later ⟨parsed, skips, _⟩
  -- `stop` is the end of the last segment
  let invariant := fun (current : List (Identifier source.Region) × Nat) (middle : Parser source) =>
    Reached input first.span.start current.2 middle ∧ Skips input isPlain parser middle ∧
      ∀ segment ∈ first :: current.1, first.span.start ≤ segment.span.start ∧ segment.span.stop ≤ current.2
  refine iterate_bind invariant invariant ?_ ?_ ?_
  · exact ⟨⟨first.span.closes, first.span.ordered, parsed.stops⟩, skips.plain rfl, by simp⟩
  · rintro ⟨more, stop⟩ middle _ ⟨reached, plain, inside⟩
    refine takePathSeparator_parses.bind ?_
    rintro (_ | _) separated ahead taken
    · exact .pure ⟨reached.later ahead, plain.trans (.refl taken), inside⟩
    refine skipInline_parses.bind ?_
    intro _ skipped ahead' gap
    refine parseIdentifier_parses.bind ?_
    rintro segment after ahead'' ⟨parsed', skips', _⟩
    refine .pure ⟨⟨?_, ?_, ?_⟩, ?_⟩
    · exact parsed'.reached (by grind)
    · exact plain.trans (taken.2.trans (gap.plain.trans (skips'.plain rfl)))
    · intro other among
      grind
    · grind
  · rintro ⟨more, stop⟩ middle later' ⟨reached, plain, inside⟩
    refine span_bind first.span.opens reached.closes reached.ordered ?_
    intro region starts stops
    refine .pure ⟨⟨?_, ?_, ?_⟩, plain, ?_⟩
    · grind
    · grind
    · grind
    · rw [starts, stops]
      exact inside

theorem parseQualifiedName_parses : Parses alike parseQualifiedName parser fun name after =>
    Parsed input parser name.span after ∧ Skips input isPlain parser after ∧
      (∀ segment ∈ name.segments, name.span.start ≤ segment.span.start ∧ segment.span.stop ≤ name.span.stop) :=
  parseQualifiedName_takes.mirrors

/-! ## Rules that are entered again -/

/-- A binding, if there is one, lies between two states. -/
def Binds (input : ParserInput source) (first : Parser source) (binding : Option (Identifier source.Region))
    (second : Parser source) : Prop :=
  ∀ name, binding = some name →
    input.offset first.position ≤ name.span.start ∧ name.span.stop ≤ input.offset second.position

theorem Binds.later (binds : Binds input first binding second) (later : Later input second third) : Binds input first binding third := by
  intro name found
  obtain ⟨starts, stops⟩ := binds name found
  exact ⟨starts, Nat.le_trans stops later.offset⟩

theorem Binds.after (binds : Binds input second binding third) (later : Later input first second) : Binds input first binding third := by
  intro name found
  obtain ⟨starts, stops⟩ := binds name found
  exact ⟨Nat.le_trans later.offset starts, stops⟩

theorem Binds.or {one two : Option (Identifier source.Region)} (left : Binds input first one second)
    (right : Binds input first two second) :
    Binds input first (one.or two) second := by
  cases one with
  | some => exact left
  | none => exact right

theorem Binds.none : Binds input first none second := by
  intro name found
  cases found

/-- A pattern and its first binding lie between two states. -/
structure ParsedPattern (input : ParserInput source) (first : Parser source) (pattern : Pattern source.Region)
    (second : Parser source) : Prop extends Parsed input first pattern.span second where
  binds : Binds input first pattern.primaryBinding second

/-- A type reference lies between two states, and no call starts inside it. -/
structure ParsedType (input : ParserInput source) (first : Parser source) (reference : TypeReference source.Region)
    (second : Parser source) : Prop extends Parsed input first reference.span second where
  plain : Skips input isPlain first second

attribute [grind →] ParsedPattern.toParsed ParsedType.toParsed

/-- The rules of a grammar keep to the order past a position. -/
structure Ready (alike : Alike input) (grammar grammar' : Grammar source) (least : Nat) : Prop where
  expression : ∀ {parser}, least < parser.position →
    Mirrors alike grammar.expression grammar'.expression parser fun expression after => Parsed input parser expression.span after
  unary : ∀ {parser}, least < parser.position →
    Mirrors alike grammar.unary grammar'.unary parser fun expression after => Parsed input parser expression.span after
  conditionalChain : ∀ {parser}, least < parser.position →
    Mirrors alike grammar.conditionalChain grammar'.conditionalChain parser fun chain after => Parsed input parser chain.span after
  pattern : ∀ {parser}, least < parser.position → Mirrors alike grammar.pattern grammar'.pattern parser (ParsedPattern input parser)
  typeReference : ∀ {parser}, least < parser.position →
    Mirrors alike grammar.typeReference grammar'.typeReference parser (ParsedType input parser)
  statementList : ∀ {parser} closing, least < parser.position →
    Mirrors alike (grammar.statementList closing) (grammar'.statementList closing) parser fun _ _ => True
  ifNode : ∀ {parser}, least < parser.position → parser.position < input.tokens.length →
    Mirrors alike grammar.ifNode grammar'.ifNode parser fun node after => Parsed input parser node.2 after

/-- A rule that stands on a grammar, on the one and on the other. -/
abbrev Ready.Keeps {α : Type} {grammar grammar' : Grammar source} {least : Nat} (_ : Ready alike grammar grammar' least)
    (rule : Grammar source → ParseM source α) (parser : Parser source) (post : α → Parser source → Prop) : Prop :=
  Mirrors alike (rule grammar) (rule grammar') parser post

abbrev Ready.Moves {α : Type} {grammar grammar' : Grammar source} {least : Nat} (ready : Ready alike grammar grammar' least)
    (rule : Grammar source → ParseM source α) (parser : Parser source) : Prop :=
  ready.Keeps rule parser fun _ after => parser.position < after.position

section Rules

variable {grammar grammar' : Grammar source} {least : Nat} (ready : Ready alike grammar grammar' least)
include ready

theorem parseTypeArguments_parses (past : least < parser.position) :
    ready.Keeps parseTypeArguments parser fun _ after => Skips input isPlain parser after := by
  refine separated_parses (fun _ middle => Skips input isPlain parser middle) (.refl rfl) (fun _ => ⟨_, rfl, rfl, trivial⟩) ?_ ?_
  · intro _ first second _ gap plain
    exact plain.trans (gap.plain rfl)
  · intro _ middle later plain
    refine .mono (ready.typeReference (by grind)) ?_
    intro reference after _ parsed
    exact ⟨plain.trans parsed.plain, parsed.taken⟩

section

variable (from_ : least ≤ parser.position)
include from_

theorem parseTypeReference_parses :
    ready.Keeps parseTypeReference parser (ParsedType input parser) := by
  refine reads rfl rfl ?_
  split
  · exact stops incompleteHere_parses
  refine parseQualifiedName_parses.bind ?_
  rintro qualified named later ⟨parsed, plain, inside⟩
  have ordered := (qualified.segments.getLast qualified.nonempty).span.ordered
  refine skipInline_parses.bind ?_
  intro _ skipped ahead gap
  refine takeIf_bind ?_ ?_
  · refine spanned_bind parser qualified.span.opens (SourceFile.Region.closes _) (by grind) ?_
    intro region spanned
    exact .pure ⟨spanned, plain.trans gap.plain⟩
  · intro bracket opened ahead' took
    refine skipLayout_parses.bind ?_
    intro _ inner ahead'' layout
    refine (parseTypeArguments_parses ready (by grind)).bind ?_
    intro arguments filled onward plain'
    refine expectDelimiter_parses.bind ?_
    intro close after final closed
    refine spanned_bind parser qualified.span.opens close.span.closes (by grind) ?_
    intro region spanned
    have bracketPlain : Skips input isPlain skipped opened := took.passes.plain rfl
    have layoutPlain : Skips input isPlain opened inner := layout.skips.plain rfl
    have closePlain : Skips input isPlain filled after := closed.passes.plain rfl
    exact .pure ⟨spanned, plain.trans <| gap.plain.trans <| bracketPlain.trans <| layoutPlain.trans <|
      plain'.trans closePlain⟩

theorem parseOptionalType_parses {introducer : Operator} {skip : ParseM source Unit}
    (skips : ∀ state, Parses alike skip state fun _ _ => True) :
    ready.Keeps (parseOptionalType · introducer skip) parser fun reference after =>
      ∀ found, reference = some found → Parsed input parser found.span after := by
  refine takeIf_bind ?_ ?_
  · refine .pure ?_
    rintro _ ⟨⟩
  intro token taken later took
  refine (skips taken).bind ?_
  intro _ skipped ahead _
  refine (ready.typeReference (by grind)).bind ?_
  intro reference after ahead' parsed
  refine .pure ?_
  rintro _ ⟨⟩
  exact ⟨by grind, by grind, by grind⟩

/-! ## Double-quoted strings and literals -/

theorem parseInterpolation_parses (inside : parser.position < input.tokens.length) :
    ready.Keeps parseInterpolation parser fun part after =>
      Parsed input parser part.span after ∧ ∃ expression, part.kind = .interpolation expression := by
  refine takeExpected_bind inside ?_
  intro opened entered later took
  refine continued_bind (fun result inner => Parsed input entered result.2.span inner) ?_ ?_
  · intro inner position
    refine skipLayout_bind ?_
    intro skipped ahead
    refine (ready.expression (by grind)).bind ?_
    intro expression parsed ahead' _
    refine skipLayout_bind ?_
    intro skipped' ahead''
    refine expectDelimiter_parses.bind ?_
    intro close after onward closed
    exact .pure ⟨by grind, by grind, by grind⟩
  · rintro ⟨expression, close⟩ inner after ahead parsed position
    refine span_bind opened.span.opens close.span.closes (by grind) ?_
    intro region opens closes
    have noting : Parses alike
        (modify fun parser => { parser with interpolationSpans := parser.interpolationSpans ++ [region] })
        after fun _ noted => noted.position = after.position :=
      .of_eq rfl rfl (.of_unmoved rfl rfl rfl rfl rfl (Nat.le_refl _)) rfl
    refine noting.bind ?_
    intro _ noted _ unmoved
    have spanned : Parsed input parser region noted := ⟨by grind, by grind, by grind⟩
    exact .pure ⟨spanned, expression, rfl⟩

theorem parseDoubleQuoted_takes {may : Prop} (inside : parser.position < input.tokens.length) :
    Takes alike may (parseDoubleQuoted grammar) (parseDoubleQuoted grammar') parser fun part after =>
      Parsed input parser part.span after ∧ ∃ parts, part.kind = .doubleQuoted parts := by
  refine .behind checkCancelled_parses checkCancelled_stands ?_
  intro _ polled ahead unmoved
  refine .takeExpected_bind (by grind) ?_
  intro opened entered later took
  refine iterate_bind (fun _ _ => True) (fun _ middle => middle.position < input.tokens.length) trivial ?_ ?_
  · intro parts middle later' _
    refine reads rfl rfl ?_
    split
    · next ended => exact Parses.pure (lt_length_of_beq ended)
    refine checkCancelled_parses.bind ?_
    intro _ polled' ahead' unmoved'
    refine reads rfl rfl ?_
    split
    · exact incompleteAt_parses
    · next token found =>
      split
      · refine advance_one_bind found ?_
        intro after _ took'
        exact .pure ⟨trivial, by grind⟩
      · refine advance_one_bind found ?_
        intro after _ took'
        exact .pure ⟨trivial, by grind⟩
      · refine advance_one_bind found ?_
        intro after _ took'
        exact .pure ⟨trivial, by grind⟩
      · refine advance_one_bind found ?_
        intro after _ took'
        exact .pure ⟨trivial, by grind⟩
      · refine (parseInterpolation_parses ready (by grind) (lt_length_of_token found)).bind ?_
        rintro part after _ ⟨parsed, _⟩
        exact .pure ⟨trivial, by grind⟩
      · exact invalidHere_parses
  · intro parts middle ahead' here
    refine takeExpected_bind here ?_
    intro close after onward closed
    refine spanned_bind parser opened.span.opens close.span.closes (by grind) ?_
    intro region spanned
    exact .pure ⟨spanned, parts, rfl⟩

theorem parseDoubleQuoted_parses (inside : parser.position < input.tokens.length) :
    ready.Keeps parseDoubleQuoted parser fun part after =>
      Parsed input parser part.span after ∧ ∃ parts, part.kind = .doubleQuoted parts :=
  (parseDoubleQuoted_takes ready from_ inside : Takes alike True _ _ _ _).mirrors

/-- A literal takes its first token when it is one. -/
theorem parseLiteral_takes :
    Takes alike (Faces input startsLiteral parser) (parseLiteral grammar) (parseLiteral grammar') parser
      fun literal after => Parsed input parser literal.span after := by
  refine .reads rfl rfl ?_
  split
  · next missing => exact .never incompleteHere_parses fun ⟨token, found, _⟩ => nomatch missing.symm.trans found
  next token found =>
  split
  -- the literals that are one token
  any_goals exact .advance_one_bind found (fun after _ took => .pure took.toParsed)
  · refine .bind (parseDoubleQuoted_takes ready from_ (lt_length_of_token found)) ?_
    rintro part after _ ⟨parsed, _, kind⟩
    rw [kind]
    exact .pure parsed
  · next null true_ false_ integer float single double =>
    refine .never invalidHere_parses ?_
    rintro ⟨_, found', starts⟩
    cases found.symm.trans found'
    unfold startsLiteral at starts
    split at starts
    · next same => exact null same
    · next same => exact true_ same
    · next same => exact false_ same
    · next number same =>
      cases number with
      | integer => exact integer same
      | float => exact float same
    · next same => exact single same
    · next same => exact double same
    · cases starts

end

/-! ## Patterns -/

theorem parsePatternField_parses (past : least < parser.position) :
    ready.Keeps parsePatternField parser fun field after =>
      parser.position < after.position ∧ Binds input parser (PatternField.firstBinding [field]) after := by
  refine checkCancelled_parses.bind ?_
  intro _ polled ahead unmoved
  refine parseIdentifier_parses.bind ?_
  rintro field named ahead' ⟨parsed, _⟩
  refine skipInline_bind ?_
  intro skipped ahead''
  have finish : ∀ pattern after, Later input skipped after → field.span.start ≤ pattern.span.stop →
      Binds input parser pattern.primaryBinding after →
      Parses alike (do
        let span ← span field.span.start pattern.span.stop
        return PatternField.mk field pattern span) after fun field after =>
        parser.position < after.position ∧ Binds input parser (PatternField.firstBinding [field]) after := by
    intro pattern after onward ordered binds
    refine span_bind field.span.opens pattern.span.closes ordered ?_
    intro region _ _
    refine Parses.pure ⟨by grind, ?_⟩
    exact Binds.or binds Binds.none
  refine answers atShorthandEnd_answers ?_
  intro shorthand _
  split
  · split
    · exact finish (.wildcard field.span) skipped (Later.refl _) field.span.ordered Binds.none
    · refine finish (.binding field) skipped (Later.refl _) field.span.ordered ?_
      rintro name ⟨⟩
      grind
  · refine expectOperator_parses.bind ?_
    intro _ colon onward _
    refine skipLayout_bind ?_
    intro skipped' onward'
    refine (ready.pattern (by grind)).bind ?_
    intro pattern after onward'' parsed'
    have between : Later input skipped skipped' := Later.trans onward onward'
    refine finish pattern after (Later.trans between onward'') ?_ ?_
    · grind
    · exact parsed'.binds.after (Later.trans (Later.trans (Later.trans ahead ahead') ahead'') between)

omit ready in
theorem firstBinding_append (patterns : List (Pattern source.Region)) (pattern : Pattern source.Region) :
    Pattern.firstBinding (patterns ++ [pattern]) = (Pattern.firstBinding patterns).or pattern.primaryBinding := by
  induction patterns with
  | nil => simp [Pattern.firstBinding]
  | cons _ _ ih => simp [Pattern.firstBinding, ih, Option.or_assoc]

omit ready in
theorem fieldBinding_append (fields : List (PatternField source.Region)) (field : PatternField source.Region) :
    PatternField.firstBinding (fields ++ [field]) =
      (PatternField.firstBinding fields).or (PatternField.firstBinding [field]) := by
  induction fields with
  | nil => rfl
  | cons first _ ih =>
    cases first
    simp [PatternField.firstBinding, ih, Option.or_assoc]

variable {name : QualifiedName source.Region} {first : Parser source}

section

variable (from_ : least ≤ parser.position) (inside : parser.position < input.tokens.length)
include from_ inside

theorem parseNominalRecordPattern_parses (entered : Later input first parser)
    (named : Parsed input first name.span parser) :
    ready.Keeps (parseNominalRecordPattern · name) parser (ParsedPattern input first) := by
  refine (takeSome_parses inside).bind ?_
  intro _ opened later took
  refine skipLayout_bind ?_
  intro skipped ahead
  have whole := Later.trans entered (Later.trans later ahead)
  refine (separated_parses
    (fun fields middle => Binds input first (PatternField.firstBinding fields) middle)
    Binds.none (fun _ => ⟨_, rfl, rfl, trivial⟩) ?_ ?_).bind ?_
  · intro fields one two onward _ binds
    exact binds.later onward
  · intro fields middle onward binds
    refine Mirrors.mono (parsePatternField_parses ready (by grind)) ?_
    rintro field after onward' ⟨taken, fieldBinds⟩
    refine ⟨?_, taken⟩
    rw [fieldBinding_append]
    exact (binds.later onward').or (fieldBinds.after (Later.trans whole onward))
  · intro fields filled onward binds
    refine expectDelimiter_parses.bind ?_
    intro close after onward' closed
    refine spanned_bind first name.span.opens close.span.closes (by grind) ?_
    intro region spanned
    exact Parses.pure ⟨spanned, binds.later onward'⟩

theorem parseVariantPattern_parses (entered : Later input first parser) (named : Parsed input first name.span parser) :
    ready.Keeps (parseVariantPattern · name) parser (ParsedPattern input first) := by
  refine (takeSome_parses inside).bind ?_
  rintro _ opened later ⟨_, rfl, took⟩
  refine skipLayout_bind ?_
  intro skipped ahead
  have whole := Later.trans entered (Later.trans later ahead)
  refine (separated_parses
    (fun payload middle => Binds input first (Pattern.firstBinding payload) middle)
    Binds.none (fun _ => ⟨_, rfl, rfl, trivial⟩) ?_ ?_).bind ?_
  · intro payload one two onward _ binds
    exact binds.later onward
  · intro payload middle onward binds
    refine Mirrors.mono (ready.pattern (by grind)) ?_
    intro pattern after onward' parsed
    refine ⟨?_, parsed.taken⟩
    rw [firstBinding_append]
    exact (binds.later onward').or (parsed.binds.after (Later.trans whole onward))
  · intro payload filled onward binds
    refine expectDelimiter_parses.bind ?_
    intro close after onward' closed
    refine spanned_bind first name.span.opens close.span.closes (by grind) ?_
    intro region spanned
    exact Parses.pure ⟨spanned, binds.later onward'⟩

theorem parseListPattern_takes {may : Prop} :
    Takes alike may (parseListPattern grammar) (parseListPattern grammar') parser (ParsedPattern input parser) := by
  refine Takes.takeExpected_bind inside ?_
  intro opened entered later took
  refine skipLayout_bind ?_
  intro skipped ahead
  have whole := Later.trans later ahead
  let invariant := fun (current : List (Pattern source.Region) × Option (Identifier source.Region))
      (middle : Parser source) =>
    Binds input parser (Pattern.firstBinding current.1) middle ∧ Binds input parser current.2 middle
  refine iterate_bind invariant invariant ⟨Binds.none, Binds.none⟩ ?_ ?_
  · rintro ⟨elements, rest⟩ middle onward ⟨binds, restBinds⟩
    have reached := Later.trans whole onward
    refine reads rfl rfl ?_
    split
    · exact Parses.pure ⟨binds, restBinds⟩
    refine takeIf_bind ?_ ?_
    · refine (ready.pattern (by grind)).bind ?_
      intro pattern parsed onward' parsed'
      refine skipLayout_bind ?_
      intro skipped' onward''
      have forward := Later.trans onward' onward''
      have extended : Binds input parser (Pattern.firstBinding (elements ++ [pattern])) skipped' := by
        rw [firstBinding_append]
        exact (binds.later forward).or ((parsed'.binds.after reached).later onward'')
      refine takeIf_bind (Parses.pure ⟨extended, restBinds.later forward⟩) ?_
      intro comma separated onward3 _
      refine skipLayout_bind ?_
      intro after onward4
      have final := Later.trans onward3 onward4
      refine Parses.pure ⟨⟨extended.later final, (restBinds.later forward).later final⟩, by grind⟩
    · intro spread taken onward' took'
      rw [Option.isSome_some, if_pos rfl]
      split
      · exact stops invalidHere_parses
      refine parseIdentifier_parses.bind ?_
      rintro name named onward'' ⟨parsed, _⟩
      refine skipLayout_bind ?_
      intro after onward3
      refine reads rfl rfl ?_
      split
      · exact stops invalidHere_parses
      refine Parses.pure ⟨((binds.later onward').later onward'').later onward3, ?_⟩
      rintro _ ⟨⟩
      grind
  · rintro ⟨elements, rest⟩ middle onward ⟨binds, restBinds⟩
    refine expectDelimiter_parses.bind ?_
    intro close after onward' closed
    refine spanned_bind parser opened.span.opens close.span.closes (by grind) ?_
    intro region spanned
    exact Parses.pure ⟨spanned, (binds.later onward').or (restBinds.later onward')⟩

end

theorem parseNamePattern_takes (from_ : least ≤ parser.position) :
    Takes alike (parser.position < input.tokens.length) (parseNamePattern grammar) (parseNamePattern grammar') parser
      (ParsedPattern input parser) := by
  refine Takes.bind parseQualifiedName_takes ?_
  rintro name named later ⟨parsed, _, inside⟩
  refine skipInline_bind ?_
  intro skipped ahead
  have parsed' : Parsed input parser name.span skipped := ⟨by grind, by grind, by grind⟩
  dsimp only
  split
  · exact Parses.pure ⟨parsed', Binds.none⟩
  refine reads rfl rfl ?_
  split
  · next brace =>
    exact parseNominalRecordPattern_parses ready (by grind) (lt_length_of_beq brace) (Later.trans later ahead) parsed'
  refine reads rfl rfl ?_
  split
  · next parenthesis =>
    exact parseVariantPattern_parses ready (by grind) (lt_length_of_beq parenthesis) (Later.trans later ahead) parsed'
  split
  · exact Parses.pure ⟨parsed', Binds.none⟩
  · refine Parses.pure ⟨⟨by grind, ?_, ?_⟩, ?_⟩
    · show _ ≤ (name.segments.head name.nonempty).span.start
      grind
    · show (name.segments.head name.nonempty).span.stop ≤ _
      grind
    · rintro _ ⟨⟩
      grind

/-- The kinds a pattern starts with. -/
def startsPattern : TokenKind → Bool
  | .identifier | .delimiter .leftBracket => true
  | kind => startsLiteral kind

/-- A pattern takes its first token when it may start one. -/
theorem parsePattern_takes (from_ : least ≤ parser.position) :
    Takes alike (Faces input startsPattern parser) (parsePattern grammar) (parsePattern grammar') parser
      (ParsedPattern input parser) := by
  refine .reads rfl rfl ?_
  split
  · next named => exact (parseNamePattern_takes ready from_).weaken fun _ => lt_length_of_kind named
  · next bracket => exact parseListPattern_takes ready from_ (lt_length_of_kind bracket)
  · next kind name bracket there =>
    have starts : Faces input startsPattern parser → Faces input startsLiteral parser := by
      rintro ⟨token, found, starts⟩
      rw [found, Option.map_some, Option.some_inj] at there
      refine ⟨token, found, ?_⟩
      unfold startsPattern at starts
      split at starts
      · next same => exact absurd (there.symm.trans same) name
      · next same => exact absurd (there.symm.trans same) bracket
      · exact starts
    split
    · refine .bind ((parseLiteral_takes ready from_).weaken starts) ?_
      intro literal after _ parsed
      exact .pure ⟨parsed, .none⟩
    · next other =>
      refine .never invalidHere_parses fun faces => ?_
      obtain ⟨token, found, literal⟩ := starts faces
      rw [found, Option.map_some, Option.some_inj] at there
      exact other (there ▸ literal)
  · next missing =>
    refine .never incompleteHere_parses ?_
    rintro ⟨_, found, _⟩
    rw [found] at missing
    cases missing

theorem parsePattern_parses (from_ : least ≤ parser.position) :
    ready.Keeps parsePattern parser (ParsedPattern input parser) :=
  (parsePattern_takes ready from_).mirrors

end Rules

end Opaal.Syntax.Parser
