import Opaal.Syntax.Parser.Progress.Names

/-!
# Expressions, words and commands keep the order
-/

namespace Opaal.Syntax.Parser

open Opaal.Machine
open Opaal.Text Mirrors
open Option (any_eq_true bind_eq_some_iff map_some)
open ParserInput (offset_of_token)

variable {source : SourceFile} {input : ParserInput source} {alike : Alike input} {parser : Parser source}

/-! ## Lookahead -/

theorem nextNonInline_answers {position : Nat} : Answers alike (nextNonInline position) parser fun next =>
    ∀ token, next = some token → ∃ found, position ≤ found ∧ input.tokens[found]? = some token ∧
      isInline token.kind = false ∧
      ∀ index, position ≤ index → index < found → (input.tokens[index]?.map (·.kind)).any isInline = true := by
  refine .reads rfl rfl ?_
  split
  · next found ahead =>
    obtain ⟨ordered, ⟨token, there, stops⟩, between⟩ := nextUnskipped_ahead ahead
    have look : ∀ other : ParserInput source, other.tokens = input.tokens → tokenAt found other parser = .ok (some token) parser := by
      rintro other same
      rw [← there, ← same]
      rfl
    refine ⟨some token, look input rfl, look alike.follow rfl, ?_⟩
    rintro _ ⟨⟩
    exact ⟨found, ordered, there, stops, between⟩
  · refine .pure ?_
    rintro _ ⟨⟩

/-- An assignment operator is the first token after a name that is not inline. -/
theorem nameIsAssignment_answers : Answers alike nameIsAssignment parser fun answer => answer = true →
    ∃ found token, parser.position < found ∧ input.tokens[found]? = some token ∧ isAssignment token.kind = true ∧
      ∀ index, parser.position < index → index < found → (input.tokens[index]?.map (·.kind)).any isInline = true := by
  refine .reads rfl rfl (.bind nextNonInline_answers ?_)
  intro next ahead
  refine .pure ?_
  intro assigned
  rw [any_eq_true] at assigned
  obtain ⟨token, rfl, assigned⟩ := assigned
  obtain ⟨found, ordered, there, _, between⟩ := ahead token rfl
  exact ⟨found, token, ordered, there, assigned, between⟩

theorem bracketEnd_answers {position : Nat} (inside : position < parser.bracketEnds.length) :
    Answers alike (bracketEnd position) parser fun _ => True := by
  refine .reads rfl rfl ?_
  rw [List.getElem?_eq_getElem inside]
  exact .pure trivial

theorem nameIsIndexedAssignment_answers (valid : Entered input parser) :
    Answers alike nameIsIndexedAssignment parser fun _ => True := by
  refine .reads rfl rfl (.reads rfl rfl ?_)
  split
  · exact .pure trivial
  · next opened ahead =>
    obtain ⟨_, ⟨_, there, _⟩, _⟩ := nextUnskipped_ahead ahead
    have inside : opened < parser.bracketEnds.length := by
      rw [valid.brackets]
      exact lt_length_of_token there
    refine .bind (bracketEnd_answers inside) ?_
    intro close _
    refine .bind nextNonInline_answers ?_
    intro next _
    exact .pure trivial

/-- Two tokens are there before what starts with a pair of them. -/
theorem startsClosure_answers : Answers alike startsClosure parser fun answer =>
    answer = true → parser.position + 1 < input.tokens.length ∧
      input.tokens[parser.position]?.map (·.kind) = some (.delimiter .leftBrace) := by
  refine .reads rfl rfl ?_
  split
  · refine .pure ?_
    rintro ⟨⟩
  · next opened found =>
    refine .reads rfl rfl (.pure ?_)
    intro starts
    rw [Bool.and_eq_true, any_eq_true] at starts
    obtain ⟨brace, _, there, _⟩ := starts
    exact ⟨lt_length_of_token there, by rw [found, map_some, eq_of_beq brace]⟩

theorem startsForcedCommand_answers : Answers alike startsForcedCommand parser fun answer =>
    answer = true → parser.position + 1 < input.tokens.length := by
  refine .reads rfl rfl ?_
  split
  · refine .pure ?_
    rintro ⟨⟩
  · refine .reads rfl rfl (.pure ?_)
    intro starts
    rw [Bool.and_eq_true, any_eq_true] at starts
    obtain ⟨_, _, there, _⟩ := starts
    exact lt_length_of_token there

theorem ioNumberBeforeRedirection_answers : Answers alike ioNumberBeforeRedirection parser fun answer =>
    answer = true → parser.position + 1 < input.tokens.length := by
  refine .reads rfl rfl ?_
  split
  · refine .pure ?_
    rintro ⟨⟩
  · refine .reads rfl rfl (.pure ?_)
    intro starts
    rw [Bool.and_eq_true, any_eq_true] at starts
    obtain ⟨_, _, there, _⟩ := starts
    exact lt_length_of_token there

theorem startsRedirection_answers : Answers alike startsRedirection parser fun _ => True := by
  refine .reads rfl rfl (.bind ioNumberBeforeRedirection_answers ?_)
  intro _ _
  exact .pure trivial

theorem atCommandEnd_answers : Answers alike atCommandEnd parser fun answer =>
    answer = false → parser.position < input.tokens.length := by
  refine .bind startsClosure_answers ?_
  intro starts pair
  split
  · next closure =>
    refine .pure ?_
    intro _
    have := (pair closure).1
    omega
  · refine .reads rfl rfl ?_
    split
    · refine .pure ?_
      rintro ⟨⟩
    · next kind found =>
      refine .pure ?_
      intro _
      exact lt_length_of_kind found

theorem atExpressionEnd_answers : Answers alike atExpressionEnd parser fun _ => True := by
  refine .reads rfl rfl ?_
  split
  · exact .pure trivial
  · exact .pure trivial

theorem tokenAhead_answers (position : Option Nat) (offset : Nat) :
    Answers alike (position.elim (pure none) fun position => tokenAt (position + offset)) parser fun _ => True := by
  cases position with
  | none => exact .pure trivial
  | some => exact ⟨_, rfl, rfl, trivial⟩

theorem nameStartsExpression_answers : Answers alike nameStartsExpression parser fun _ => True := by
  refine .reads rfl rfl (.reads rfl rfl (.reads rfl rfl ?_))
  refine .bind (tokenAhead_answers _ 0) ?_
  intro next _
  split
  · exact .pure trivial
  split
  · exact .pure trivial
  refine .bind (tokenAhead_answers _ 1) ?_
  intro second _
  split
  · exact .pure trivial
  refine .bind nextNonInline_answers ?_
  intro _ _
  exact .pure trivial

theorem startsExpressionStage_answers : Answers alike startsExpressionStage parser fun _ => True := by
  refine .reads rfl rfl ?_
  split
  · exact nameStartsExpression_answers
  · exact .pure trivial
  · exact .pure trivial

theorem startsNominalRecord_answers : Answers alike startsNominalRecord parser fun _ => True := by
  refine .reads rfl rfl ?_
  split
  · exact .pure trivial
  refine .reads rfl rfl (.reads rfl rfl ?_)
  split
  · exact .pure trivial
  next first ahead =>
  obtain ⟨_, ⟨_, there, _⟩, _⟩ := nextUnskipped_ahead ahead
  refine .bind (tokenIndexed_answers there) ?_
  rintro _ rfl
  split
  · exact .pure trivial
  · refine .reads rfl rfl ?_
    split
    · exact .pure trivial
    next position ahead' =>
    obtain ⟨_, ⟨_, there', _⟩, _⟩ := nextUnskipped_ahead ahead'
    refine .bind (tokenIndexed_answers there') ?_
    rintro _ rfl
    exact .reads rfl rfl (.pure trivial)
  · exact .pure trivial

/-- A call that is seen ahead starts with a parenthesis further on. -/
theorem bracketIsFollowedByCall_answers (valid : Entered input parser)
    (inside : parser.position < input.tokens.length) :
    Answers alike bracketIsFollowedByCall parser fun answer => answer = true →
      ∃ found, parser.position < found ∧
        input.tokens[found]?.map (·.kind) = some (.delimiter .leftParenthesis) := by
  refine .reads rfl rfl ?_
  have there : parser.position < parser.bracketEnds.length := by rw [valid.brackets]; exact inside
  refine .bind (bracketEnd_answers there) ?_
  intro close _
  split
  · refine .pure ?_
    rintro ⟨⟩
  next beyond =>
  refine .of_input rfl ?_
  dsimp only
  split
  · next position ahead =>
    obtain ⟨ordered, _, _⟩ := nextUnskipped_ahead ahead
    refine .pure ?_
    intro called
    rw [any_eq_true] at called
    obtain ⟨token, found, parenthesis⟩ := called
    exact ⟨position, by omega, by rw [found, map_some, eq_of_beq parenthesis]⟩
  · refine .pure ?_
    rintro ⟨⟩

/-- An operand lies between two states, and so does the name it is, if it is one. -/
structure Operand (input : ParserInput source) (first : Parser source) (expression : Expression source.Region)
    (second : Parser source) : Prop extends Parsed input first expression.span second where
  named : ∀ name, qualifiedOf expression = some name → Parsed input first name.span second ∧
    Parsed input first name.first.span second

attribute [grind →] Operand.toParsed

section Rules

variable {grammar grammar' : Grammar source} {least : Nat} (ready : Ready alike grammar grammar' least)
include ready

/-! ## Parameters and closures -/

section

variable (past : least < parser.position)
include past

theorem parseParameter_parses :
    ready.Moves parseParameter parser := by
  refine currentSpan_bind ?_
  intro token found
  have here := offset_of_token found
  refine (ready.pattern past).bind ?_
  intro pattern parsed later parsed'
  split
  · exact invalidAt_parses
  next name bound =>
  obtain ⟨starts, stops⟩ := parsed'.binds name bound
  have ordered := name.span.ordered
  refine skipInline_bind ?_
  intro skipped ahead
  refine (parseOptionalType_parses ready (by grind) fun _ => skipLayout_parses.anything).bind ?_
  intro reference after ahead' annotated
  cases reference with
  | none =>
    have forward : token.span.start ≤ name.span.stop := by omega
    exact span_pure token.span.opens name.span.closes forward fun _ => by grind
  | some reference =>
    exact span_pure token.span.opens reference.span.closes (by grind) fun _ => by grind

theorem parseParameters_parses {closing : Delimiter} :
    ready.Keeps (parseParameters · closing) parser fun _ _ => True := by
  refine skipLayout_bind ?_
  intro skipped ahead
  refine separated_advances (fun _ => ⟨_, rfl, rfl, trivial⟩) ?_
  intro state later
  exact parseParameter_parses ready (by grind)

theorem parseClosureParameters_parses :
    ready.Keeps parseClosureParameters parser fun _ _ => True := by
  refine skipLayout_bind ?_
  intro skipped ahead
  refine separated_advances (fun _ => ⟨_, rfl, rfl, trivial⟩) ?_
  intro state later
  exact parseParameter_parses ready (by grind)

theorem parseValueChain_parses :
    ready.Keeps parseValueChain parser fun chain after =>
      Parsed input parser chain.span after := by
  refine assume fun valid => ?_
  let entered : Parser source := { parser with valueChainDepth := parser.valueChainDepth + 1 }
  have enteredValid : Entered input entered := ⟨valid.sound, valid.within, valid.brackets⟩
  have inner : Mirrors alike grammar.conditionalChain grammar'.conditionalChain entered fun chain after =>
      Parsed input entered chain.span after := ready.conditionalChain past
  have deeper : ∀ inside, Later input entered inside → inside.valueChainDepth = parser.valueChainDepth + 1 :=
    fun inside stepped => stepped.chain
  refine .steps entered rfl rfl (Nat.le_refl _) (fun _ => enteredValid) ?_
  refine countDown_parses inner (fun inside stepped => ?_) (fun _ => rfl)
    (fun inside valid => ⟨valid.sound, valid.within, valid.brackets⟩) (fun inside stepped => ?_)
    fun chain inside _ parsed => ⟨parsed.taken, parsed.starts, parsed.stops⟩
  · rw [deeper inside stepped]
    exact Nat.succ_ne_zero _
  · exact ⟨stepped.position, stepped.offset, stepped.within, stepped.continuation, stepped.condition,
      by show inside.valueChainDepth - 1 = _; rw [deeper inside stepped]; rfl, stepped.brackets, stepped.polls⟩

theorem parseClosureHead_parses {marker : PlacedToken source} :
    ready.Keeps (parseClosureHead · marker) parser fun _ _ => True := by
  unfold parseClosureHead
  split
  · exact .pure trivial
  refine (parseClosureParameters_parses ready past).bind ?_
  intro parameters parsed _ _
  refine expectOperator_parses.bind ?_
  intro _ _ _ _
  exact .pure trivial

end

theorem parseClosure_parses (from_ : least ≤ parser.position) (pair : parser.position + 1 < input.tokens.length) :
    ready.Keeps parseClosure parser fun closure after => Parsed input parser closure.span after := by
  refine expectDelimiter_parses.bind ?_
  intro opened entered later took
  refine takeExpected_bind (by grind) ?_
  intro marker marked later' took'
  refine continued_bind (fun result inner => Parsed input marked result.2.2.2.span inner) ?_ ?_
  · intro inner position
    refine (parseClosureHead_parses ready (by grind)).bind ?_
    intro parameters headed reached _
    refine skipLayout_bind ?_
    intro skipped reached'
    refine (parseOptionalType_parses ready (by grind) fun _ => skipLayout_parses.anything).bind ?_
    intro resultType typed reached'' _
    refine skipLayout_bind ?_
    intro skipped ahead
    refine (parseValueChain_parses ready (by grind)).bind ?_
    intro body parsed ahead' _
    refine skipLayout_bind ?_
    intro skipped' ahead''
    refine expectDelimiter_parses.bind ?_
    intro close after onward closed
    exact .pure ⟨by grind, by grind, by grind⟩
  · rintro ⟨parameters, resultType, body, close⟩ inner after ahead parsed position
    refine spanned_bind parser opened.span.opens close.span.closes (by grind) ?_
    intro region spanned
    exact .pure spanned

/-! ## Words -/

variable {start : Nat} {token : PlacedToken source} {operator : source.Region} {first second third : Parser source}
  {expression target : Expression source.Region}

omit ready in
theorem takeBareTokens_parses {stop : Nat} (reached : Reached input start stop parser) :
    Mirrors alike (takeBareTokens stop) (takeBareTokens stop) parser fun stop after => Reached input start stop after := by
  refine iterate_parses (fun stop middle => Reached input start stop middle) reached ?_
  intro stop middle later reached
  refine reads rfl rfl ?_
  split
  · next next found =>
    split
    · refine checkCancelled_parses.bind ?_
      intro _ polled ahead unmoved
      rw [← unmoved.position] at found
      refine advance_one_bind found ?_
      intro after ahead' took
      exact .pure ⟨took.reached (by grind), by grind⟩
    · exact Parses.pure reached
  · exact Parses.pure reached

omit ready in
theorem takePart_parses {kind : WordPartKind source.Region} (found : input.tokens[parser.position]? = some token) :
    Parses alike (takePart kind token) parser fun part after =>
      ∀ found, part = some found → Parsed input parser found.span after := by
  refine advance_one_bind found ?_
  intro after _ took
  refine .pure ?_
  rintro _ ⟨⟩
  exact took.toParsed

omit ready in
theorem takeDoubledBrace_parses {next : PlacedToken source} (found : input.tokens[parser.position]? = some token)
    (there : input.tokens[parser.position + 1]? = some next) :
    Parses alike (takeDoubledBrace token next) parser fun part after =>
      ∀ found, part = some found → Parsed input parser found.span after := by
  refine assume fun valid => ?_
  have starts := offset_of_token found
  have starts' := offset_of_token there
  have ordered := valid.sound.offset_succ parser.position
  have stops := valid.sound.contiguous there
  have ordered' := next.span.ordered
  refine (advance_parses 2 (lt_length_of_token there)).bind ?_
  rintro _ _ _ rfl
  refine span_bind token.span.opens next.span.closes (by omega) ?_
  intro region opens closes
  refine .pure ?_
  rintro _ ⟨⟩
  refine ⟨?_, ?_, ?_⟩
  · show parser.position < parser.position + 2
    omega
  · show _ ≤ region.start
    omega
  · show region.stop ≤ input.offset (parser.position + 1 + 1)
    omega

omit ready in
/-- A rule for a part as a rule for a part that may be missing. -/
theorem someOf_parses {rule : ParseM source (WordPart source.Region)} {kind : WordPart source.Region → Prop}
    (parses : Mirrors alike rule rule' parser fun part after => Parsed input parser part.span after ∧ kind part) :
    Mirrors alike (do return some (← rule)) (do return some (← rule')) parser fun part after =>
      ∀ found, part = some found → Parsed input parser found.span after := by
  refine parses.bind ?_
  intro part after _ parsed
  refine .pure ?_
  rintro _ ⟨⟩
  exact parsed.1

section

variable (from_ : least ≤ parser.position)
include from_

theorem parseWordPart_parses :
    ready.Keeps parseWordPart parser fun part after =>
      ∀ found, part = some found → Parsed input parser found.span after := by
  refine checkCancelled_parses.bind ?_
  intro _ polled ahead unmoved
  refine Mirrors.mono (?_ : Mirrors alike _ _ polled fun part after =>
    ∀ found, part = some found → Parsed input polled found.span after) ?_
  · refine reads rfl rfl ?_
    split
    · refine Parses.pure ?_
      rintro _ ⟨⟩
    next token found =>
    have here := lt_length_of_token found
    have enough : least ≤ polled.position := by grind
    refine reads rfl rfl ?_
    split
    · next doubled =>
      rw [Bool.and_eq_true, any_eq_true] at doubled
      obtain ⟨_, next, there, _⟩ := doubled
      rw [there]
      exact takeDoubledBrace_parses found there
    split
    · exact takePart_parses found
    · exact takePart_parses found
    · exact someOf_parses (parseDoubleQuoted_parses ready enough here)
    · exact someOf_parses (parseInterpolation_parses ready enough here)
    · exact someOf_parses (parseInterpolation_parses ready enough here)
    · exact takePart_parses found
    split
    · refine advance_one_bind found ?_
      intro taken ahead' took
      have first : Reached input token.span.start token.span.stop taken :=
        ⟨token.span.closes, token.span.ordered, took.stops⟩
      refine (takeBareTokens_parses first).bind ?_
      intro stop after ahead'' reached
      refine span_bind token.span.opens reached.closes reached.ordered ?_
      intro region opens closes
      refine Parses.pure ?_
      rintro _ ⟨⟩
      have spanned : Parsed input polled region after := ⟨by grind, by grind, by grind⟩
      exact spanned
    · refine Parses.pure ?_
      rintro _ ⟨⟩
  · intro part after _ parsed found eq
    exact (parsed found eq).of_position unmoved.position

theorem parseWord_parses :
    ready.Keeps parseWord parser fun word after => Parsed input parser word.span after := by
  refine checkCancelled_parses.bind ?_
  intro _ polled ahead unmoved
  refine currentSpan_bind ?_
  intro token found
  have here := offset_of_token found
  -- the word so far ends at `stop`, and some token was taken for its parts
  let invariant := fun (current : List (WordPart source.Region) × Nat) (middle : Parser source) =>
    Reached input token.span.start current.2 middle ∧ (current.1 ≠ [] → parser.position < middle.position)
  refine iterate_bind invariant invariant ?_ ?_ ?_
  · exact ⟨⟨token.span.opens, Nat.le_refl _, Nat.le_of_eq here.symm⟩, by simp⟩
  · rintro ⟨parts, stop⟩ middle later ⟨reached, some⟩
    refine checkCancelled_parses.bind ?_
    intro _ polled' ahead' unmoved'
    refine reads rfl rfl ?_
    split
    · exact Parses.pure ⟨reached.later ahead', by grind⟩
    refine (parseWordPart_parses ready (by grind)).bind ?_
    rintro (_ | part) after ahead'' parsed
    · exact .pure ⟨(reached.later ahead').later ahead'', by grind⟩
    · have parsed := parsed part rfl
      exact .pure ⟨⟨parsed.reached (by grind), by grind⟩, by grind⟩
  · rintro ⟨parts, stop⟩ middle later ⟨reached, some⟩
    dsimp only
    split
    · exact stops invalidHere_parses
    next nonempty =>
    refine span_bind token.span.opens reached.closes reached.ordered ?_
    intro region opens closes
    have taken : parser.position < middle.position := some (by simpa using nonempty)
    have spanned : Parsed input parser region middle := ⟨taken, by grind, by grind⟩
    exact .pure spanned

/-! ## Command items -/

theorem parseSpreadItem_parses (inside : parser.position < input.tokens.length) :
    ready.Keeps parseSpreadItem parser fun item after => Parsed input parser item.span after := by
  refine takeExpected_bind inside ?_
  intro spread entered later took
  refine reads rfl rfl ?_
  split
  · exact incompleteAt_parses
  next opened found =>
  split
  · exact stops invalidAt_parses
  refine (parseInterpolation_parses ready (by grind) (lt_length_of_token found)).bind ?_
  rintro part after ahead ⟨parsed, expression, kind⟩
  refine spanned_bind parser spread.span.opens part.span.closes (by grind) ?_
  intro region spanned
  rw [kind]
  exact .pure spanned

theorem parseRedirectionTarget_parses :
    ready.Keeps (parseRedirectionTarget · operator) parser fun word after =>
      Parsed input parser word.span after := by
  refine reads rfl rfl (answers atCommandEnd_answers ?_)
  intro _ _
  split
  · exact stops incompleteAt_parses
  · exact parseWord_parses ready from_

end

omit ready in
theorem parseDuplicate_parses {descriptor : IoNumber source.Region} (from_ : start ≤ input.offset parser.position) :
    Parses alike (parseDuplicate descriptor operator) parser fun result after => Reached input start result.2 after := by
  refine skipInline_bind ?_
  intro skipped ahead
  refine reads rfl rfl ?_
  split
  · next number =>
    refine takeExpected_bind (lt_length_of_kind number) ?_
    intro target after _ took
    exact .pure (took.reached (by grind))
  · next minus =>
    refine takeExpected_bind (lt_length_of_kind minus) ?_
    intro target after _ took
    exact .pure (took.reached (by grind))
  · exact invalidHere_parses
  · exact incompleteAt_parses

theorem parseRedirectionKind_parses {descriptor : Option (IoNumber source.Region)} {operator : PlacedToken source}
    (from_ : least ≤ parser.position) (starts : start ≤ input.offset parser.position) :
    ready.Keeps (parseRedirectionKind · descriptor operator) parser fun result after =>
      Reached input start result.2 after := by
  have target : ∀ (kind : Word source.Region → RedirectionKind source.Region),
      ready.Keeps (do
        skipInline
        let target ← parseRedirectionTarget · operator.span
        return (kind target, target.span.stop)) parser fun result after => Reached input start result.2 after := by
    intro kind
    refine skipInline_bind ?_
    intro skipped ahead
    refine (parseRedirectionTarget_parses ready (by grind)).bind ?_
    intro target after _ parsed
    exact .pure (parsed.reached (by grind))
  unfold parseRedirectionKind
  split
  · exact target fun word => .input descriptor operator.span word
  · exact target fun word => .file descriptor .truncate operator.span word
  · exact target fun word => .file descriptor .append operator.span word
  · split
    · exact invalidAt_parses
    · exact parseDuplicate_parses starts
  · exact invalidAt_parses

omit ready in
theorem takeIoNumber_parses : Parses alike takeIoNumber parser fun _ _ => True := by
  refine answers ioNumberBeforeRedirection_answers ?_
  intro answer inside
  split
  · next number =>
    have := inside number
    refine takeExpected_bind (by omega) ?_
    intro _ _ _ _
    exact .pure trivial
  · exact Parses.pure trivial

theorem parseRedirectionItem_parses (from_ : least ≤ parser.position) :
    ready.Keeps parseRedirectionItem parser fun item after => Parsed input parser item.span after := by
  refine currentSpan_bind ?_
  intro token found
  have here := offset_of_token found
  refine takeIoNumber_parses.bind ?_
  intro descriptor numbered ahead _
  refine take_parses.bind ?_
  rintro (_ | operator) taken ahead' took
  · exact incompleteHere_parses
  have starts : token.span.start ≤ input.offset taken.position := by grind
  refine (parseRedirectionKind_parses ready (by grind) starts).bind ?_
  rintro ⟨kind, stop⟩ after ahead'' reached
  refine spanned_bind parser token.span.opens reached.closes (by grind) ?_
  intro region spanned
  exact .pure spanned

theorem parseCommandItem_parses (from_ : least ≤ parser.position) :
    ready.Keeps parseCommandItem parser fun item after => Parsed input parser item.span after := by
  refine answers startsRedirection_answers ?_
  intro _ _
  split
  · exact parseRedirectionItem_parses ready from_
  refine reads rfl rfl ?_
  split
  · next spread => exact parseSpreadItem_parses ready from_ (lt_length_of_beq spread)
  refine answers startsClosure_answers ?_
  intro _ pair
  split
  · next starts =>
    refine (parseClosure_parses ready from_ (pair starts).1).bind ?_
    intro closure after _ parsed
    exact .pure parsed
  · refine (parseWord_parses ready from_).bind ?_
    intro word after _ parsed
    exact .pure parsed

/-! ## Primaries -/

omit ready in
/-- Items and a closing delimiter, inside a continuation. -/
theorem enclosed_bind {α β : Type} {item item' : ParseM source α} {looksAgain : Bool} {side : Delimiter} {message : String}
    {rest rest' : List α × PlacedToken source → ParseM source β} {post : β → Parser source → Prop}
    (items : ∀ state, parser.position ≤ state.position →
      Mirrors alike item item' state fun _ after => state.position < after.position)
    (second : ∀ values close inner after, Later input parser after → Parsed input parser close.span inner →
      after.position = inner.position → Mirrors alike (rest (values, close)) (rest' (values, close)) after post) :
    Mirrors alike (continued (do
      skipLayout
      let values ← separated true looksAgain (atDelimiter (some side)) item
      let close ← expectDelimiter side message
      return (values, close)) >>= rest) (continued (do
      skipLayout
      let values ← separated true looksAgain (atDelimiter (some side)) item'
      let close ← expectDelimiter side message
      return (values, close)) >>= rest') parser post := by
  refine continued_bind (fun result inner => Parsed input parser result.2.span inner) ?_ ?_
  · intro entered position
    refine skipLayout_bind ?_
    intro skipped ahead
    refine (separated_advances (fun _ => ⟨_, rfl, rfl, trivial⟩) fun state later => items state (by grind)).bind ?_
    intro values filled ahead' _
    refine expectDelimiter_parses.bind ?_
    intro close after ahead'' closed
    exact .pure ⟨by grind, by grind, by grind⟩
  · rintro ⟨values, close⟩ inner after
    exact second values close inner after

theorem parseListItem_parses (past : least < parser.position) :
    ready.Moves parseListItem parser := by
  refine takeIf_bind ?_ ?_
  · refine (ready.expression past).bind ?_
    intro operand after _ parsed
    exact .pure parsed.taken
  · intro marker taken later took
    refine (ready.expression (by grind)).bind ?_
    intro operand after _ parsed
    exact .pure (by grind)

theorem parseList_parses (from_ : least ≤ parser.position) (inside : parser.position < input.tokens.length) :
    ready.Keeps parseList parser (Operand input parser) := by
  refine takeExpected_bind inside ?_
  intro opened entered later took
  refine enclosed_bind (fun state ahead => parseListItem_parses ready (by grind)) ?_
  intro values close inner after ahead parsed position
  refine spanned_bind parser opened.span.opens close.span.closes (by grind) ?_
  intro region spanned
  exact .pure ⟨spanned, by rintro _ ⟨⟩⟩

theorem parseRecordFieldValue_parses {name : Identifier source.Region} {message : String} (past : least < parser.position)
    (entered : Later input first parser) (named : Parsed input first name.span parser) :
    ready.Keeps (parseRecordFieldValue · name message) parser fun value after =>
      Parsed input first value.span after ∧ name.span.start ≤ value.span.stop := by
  refine checkCancelled_parses.bind ?_
  intro _ polled ahead unmoved
  refine answers atShorthandEnd_answers ?_
  intro _ _
  split
  · have spanned : Parsed input first name.span polled := ⟨by grind, by grind, by grind⟩
    exact Parses.pure ⟨spanned, name.span.ordered⟩
  refine expectOperator_parses.bind ?_
  intro _ colon ahead' _
  refine skipLayout_bind ?_
  intro skipped ahead''
  refine .mono (ready.expression (by grind)) ?_
  intro value after ahead3 parsed
  exact ⟨⟨by grind, by grind, by grind⟩, by grind⟩

theorem parseRecordKey_parses (from_ : least ≤ parser.position) :
    ready.Keeps parseRecordKey parser fun key after => parser.position < after.position ∧
      ∀ name, key = .identifier name → Parsed input parser name.span after := by
  refine reads rfl rfl ?_
  split
  · refine parseIdentifier_parses.bind ?_
    intro name after _ parsed
    refine .pure ⟨parsed.1.taken, ?_⟩
    rintro _ ⟨⟩
    exact parsed.1
  · next quoted =>
    refine takeExpected_bind (lt_length_of_kind quoted) ?_
    intro token after _ took
    refine .pure ⟨took.taken, ?_⟩
    rintro _ ⟨⟩
  · next quoted =>
    refine (parseDoubleQuoted_parses ready from_ (lt_length_of_kind quoted)).bind ?_
    intro part after _ parsed
    refine .pure ⟨parsed.1.taken, ?_⟩
    rintro _ ⟨⟩
  · exact invalidHere_parses
  · exact incompleteHere_parses

theorem parseRecordEntry_parses (from_ : least ≤ parser.position) :
    ready.Moves parseRecordEntry parser := by
  refine currentSpan_bind ?_
  intro token found
  have here := offset_of_token found
  refine (parseRecordKey_parses ready from_).bind ?_
  rintro key keyed ahead ⟨taken, named⟩
  refine skipInline_bind ?_
  intro skipped ahead'
  have finish : ∀ (value : Expression source.Region) (after : Parser source), Parsed input parser value.span after →
      Parses alike (do
        let span ← span token.span.start value.span.stop
        return RecordEntry.mk key value span) after fun _ after => parser.position < after.position := by
    intro value after parsed
    exact span_pure token.span.opens value.span.closes (by grind) fun _ => parsed.taken
  split
  · next name =>
    have whole : Parsed input parser name.span skipped := ⟨by grind, by grind, by grind⟩
    refine (parseRecordFieldValue_parses ready (by grind) (.trans ahead ahead') whole).bind ?_
    intro value after _ parsed
    exact finish value after parsed.1
  · refine expectOperator_parses.bind ?_
    intro _ colon onward _
    refine skipLayout_bind ?_
    intro skipped' onward'
    refine (ready.expression (by grind)).bind ?_
    intro value after onward'' parsed
    exact finish value after ⟨by grind, by grind, by grind⟩

theorem parseRecord_parses (from_ : least ≤ parser.position) (inside : parser.position < input.tokens.length) :
    ready.Keeps parseRecord parser (Operand input parser) := by
  refine takeExpected_bind inside ?_
  intro opened entered later took
  refine enclosed_bind (fun state ahead => parseRecordEntry_parses ready (by grind)) ?_
  intro entries close inner after ahead parsed position
  refine spanned_bind parser opened.span.opens close.span.closes (by grind) ?_
  intro region spanned
  exact .pure ⟨spanned, by rintro _ ⟨⟩⟩

omit ready in
theorem forbidCompoundAssignment_parses : Parses alike forbidCompoundAssignment parser fun _ after =>
    after = parser := by
  refine reads rfl rfl (answers nameIsAssignment_answers ?_)
  intro _ _
  split
  · refine reads rfl rfl (answers nextNonInline_answers ?_)
    intro next _
    split
    · split
      · exact invalidAt_parses
      · exact Parses.pure rfl
    · exact Parses.pure rfl
  · exact Parses.pure rfl

theorem parseGroupedJob_parses (from_ : least ≤ parser.position) (inside : parser.position < input.tokens.length) :
    ready.Keeps parseGroupedJob parser (Operand input parser) := by
  refine takeExpected_bind inside ?_
  intro opened entered later took
  refine continued_bind (fun result inner => Parsed input entered result.2.span inner) ?_ ?_
  · intro inner position
    refine skipLayout_bind ?_
    intro skipped ahead
    refine forbidCompoundAssignment_parses.bind ?_
    rintro _ _ _ rfl
    refine (ready.conditionalChain (by grind)).bind ?_
    intro chain parsed ahead' _
    refine skipLayout_bind ?_
    intro skipped' ahead''
    refine reads rfl rfl ?_
    split
    · exact stops invalidHere_parses
    refine expectDelimiter_parses.bind ?_
    intro close after onward closed
    exact .pure ⟨by grind, by grind, by grind⟩
  · rintro ⟨chain, close⟩ inner after ahead parsed position
    refine spanned_bind parser opened.span.opens close.span.closes (by grind) ?_
    intro region spanned
    exact .pure ⟨spanned, by rintro _ ⟨⟩⟩

omit ready in
/-- An operand entered later is one entered earlier. -/
theorem Operand.after (operand : Operand input second expression third) (later : Later input first second) :
    Operand input first expression third := by
  have earlier : ∀ {span : source.Region}, Parsed input second span third → Parsed input first span third := by
    intro span parsed
    exact ⟨by grind, by grind, parsed.stops⟩
  refine ⟨earlier operand.toParsed, ?_⟩
  intro name named
  obtain ⟨whole, head⟩ := operand.named name named
  exact ⟨earlier whole, earlier head⟩

theorem parsePrimary_parses (from_ : least ≤ parser.position) :
    ready.Keeps parsePrimary parser (Operand input parser) := by
  refine checkCancelled_parses.bind ?_
  intro _ polled ahead unmoved
  refine skipInline_bind ?_
  intro skipped ahead'
  have enough : least ≤ skipped.position := by grind
  have later := Later.trans ahead ahead'
  refine Mirrors.mono (?_ : Mirrors alike _ _ skipped (Operand input skipped)) fun _ _ _ operand => operand.after later
  refine reads rfl rfl ?_
  split
  · exact incompleteHere_parses
  next kind found =>
  have inside := lt_length_of_kind found
  split
  · refine Mirrors.bind (parseLiteral_takes ready enough).mirrors ?_
    intro literal after _ parsed
    exact Parses.pure ⟨parsed, by rintro _ ⟨⟩⟩
  split
  · refine parseNameReference_parses.bind ?_
    rintro reference after _ ⟨parsed, same, _⟩
    refine Parses.pure ⟨parsed, ?_⟩
    rintro _ ⟨⟩
    refine ⟨parsed, ?_⟩
    show Parsed input skipped reference.name.span after
    rw [same]
    exact parsed
  · exact parseList_parses ready enough inside
  · refine answers startsClosure_answers ?_
    intro _ pair
    split
    · next starts =>
      refine (parseClosure_parses ready enough (pair starts).1).bind ?_
      intro closure after _ parsed
      exact Parses.pure ⟨parsed, by rintro _ ⟨⟩⟩
    · exact parseRecord_parses ready enough inside
  · exact parseGroupedJob_parses ready enough inside
  · exact invalidHere_parses

/-! ## Postfix forms -/

omit ready in
theorem qualifiedOf_of_isNamed (named : isNamed expression = true) :
    ∃ name, qualifiedOf expression = some name := by
  unfold isNamed at named
  unfold qualifiedOf
  split at named
  · exact ⟨_, rfl⟩
  · exact ⟨_, rfl⟩
  · cases named

omit ready in
theorem Operand.later (operand : Operand input first expression second) (later : Later input second third) :
    Operand input first expression third := by
  have longer : ∀ {span : source.Region}, Parsed input first span second → Parsed input first span third := by
    intro span parsed
    exact ⟨by grind, parsed.starts, by grind⟩
  refine ⟨longer operand.toParsed, ?_⟩
  intro name named
  obtain ⟨whole, head⟩ := operand.named name named
  exact ⟨longer whole, longer head⟩

/-- A postfix form of an operand that starts at `first`. -/
def Extended (input : ParserInput source) (first second : Parser source) (expression : Expression source.Region)
    (third : Parser source) : Prop :=
  Operand input first expression third ∧ second.position < third.position

/-- What a postfix step makes of an operand that starts at `first`. -/
def Extends (input : ParserInput source) (first second : Parser source)
    (turn : Turn (Expression source.Region) (Expression source.Region)) (third : Parser source) : Prop :=
  match turn with
  | .again expression => Extended input first second expression third
  | .done expression => Operand input first expression third

omit ready in
theorem parseQualifiedPostfix_parses (entered : Later input first parser) (inside : parser.position < input.tokens.length)
    (operand : Operand input first expression parser) (isName : isNamed expression = true) :
    Parses alike (parseQualifiedPostfix expression) parser (Extends input first parser) := by
  obtain ⟨name, named⟩ := qualifiedOf_of_isNamed isName
  obtain ⟨whole, head⟩ := operand.named name named
  refine reads rfl rfl ?_
  refine FollowsFrom.bind (Later.refl parser) (advance_parses 1 inside) ?_
  rintro _ _ later rfl
  refine FollowsFrom.bind later takeIf_parses ?_
  rintro (_ | colon) taken stepped took
  · obtain rfl : taken = parser.advanced 1 := took
    refine restore_ends later rfl ?_
    exact operand
  have later := Later.trans later stepped
  refine FollowsFrom.of_follows later ?_
  refine skipInline_bind ?_
  intro skipped ahead
  refine parseIdentifier_parses.bind ?_
  rintro segment after ahead' ⟨parsed, _⟩
  rw [named]
  refine reads rfl rfl ?_
  refine spanned_bind first (SourceFile.Region.opens _) segment.span.closes (by grind) ?_
  intro region spanned
  refine Parses.pure ⟨⟨spanned, ?_⟩, by grind⟩
  rintro _ ⟨⟩
  refine ⟨spanned, ?_⟩
  unfold QualifiedName.first at *
  exact ⟨by grind, by grind, by grind⟩

theorem parseNominalField_parses (past : least < parser.position) :
    ready.Moves parseNominalField parser := by
  refine parseIdentifier_parses.bind ?_
  rintro field named ahead ⟨parsed, _⟩
  refine skipInline_bind ?_
  intro skipped ahead'
  have whole : Parsed input parser field.span skipped := ⟨by grind, by grind, by grind⟩
  refine (parseRecordFieldValue_parses ready (by grind) (.trans ahead ahead') whole).bind ?_
  rintro value after ahead'' ⟨parsed', ordered⟩
  exact span_pure field.span.opens value.span.closes ordered fun _ => parsed'.taken

section

variable (from_ : least ≤ parser.position) (inside : parser.position < input.tokens.length)
include from_ inside

theorem parseNominalRecord_parses (operand : Operand input first expression parser) (isName : isNamed expression = true) :
    ready.Keeps (parseNominalRecord · expression) parser (Extended input first parser) := by
  obtain ⟨name, named⟩ := qualifiedOf_of_isNamed isName
  obtain ⟨whole, _⟩ := operand.named name named
  unfold parseNominalRecord
  rw [named]
  refine reads rfl rfl ?_
  refine (advance_inside_parses inside).bind ?_
  rintro _ entered later ⟨opened, took⟩
  refine enclosed_bind (fun state ahead => parseNominalField_parses ready (by grind)) ?_
  intro fields close inner after ahead parsed position
  refine spanned_bind first name.span.opens close.span.closes (by grind) ?_
  intro region spanned
  exact .pure ⟨⟨spanned, by rintro _ ⟨⟩⟩, by grind⟩

theorem parseCall_parses {callee : Expression source.Region} {typeArguments : List (TypeReference source.Region)}
    {looksAgain : Bool} (operand : Operand input first callee parser) :
    ready.Keeps (parseCall · callee typeArguments looksAgain) parser (Extended input first parser) := by
  refine (advance_inside_parses inside).bind ?_
  rintro _ entered later ⟨opened, took⟩
  refine enclosed_bind (fun state ahead => .mono (ready.expression (by grind)) fun _ _ _ parsed => parsed.taken) ?_
  intro arguments close inner after ahead parsed position
  refine spanned_bind first callee.span.opens close.span.closes (by grind) ?_
  intro region spanned
  exact .pure ⟨⟨spanned, by rintro _ ⟨⟩⟩, by grind⟩

theorem parseIndex_parses (operand : Operand input first target parser) :
    ready.Keeps (parseIndex · target) parser (Extended input first parser) := by
  refine (advance_inside_parses inside).bind ?_
  rintro _ entered later ⟨opened, took⟩
  refine continued_bind (fun result inner => Parsed input entered result.2.span inner) ?_ ?_
  · intro inner position
    refine skipLayout_bind ?_
    intro skipped ahead
    refine (ready.expression (by grind)).bind ?_
    intro index parsed ahead' _
    refine skipLayout_bind ?_
    intro skipped' ahead''
    refine expectDelimiter_parses.bind ?_
    intro close after onward closed
    exact .pure ⟨by grind, by grind, by grind⟩
  · rintro ⟨index, close⟩ inner after ahead parsed position
    refine spanned_bind first target.span.opens close.span.closes (by grind) ?_
    intro region spanned
    exact .pure ⟨⟨spanned, by rintro _ ⟨⟩⟩, by grind⟩

end

section

variable (from_ : least ≤ parser.position)
  (bracket : input.tokens[parser.position]?.map (·.kind) = some (.delimiter .leftBracket))
include from_ bracket

/-- Type arguments are taken without passing a parenthesis. -/
theorem parseExplicitTypeArguments_parses :
    ready.Keeps parseExplicitTypeArguments parser fun _ after =>
      parser.position < after.position ∧ Skips input isPlain parser after := by
  refine (advance_inside_parses (lt_length_of_kind bracket)).bind ?_
  rintro _ entered later ⟨opened, took⟩
  have opening : Skips input isPlain parser entered := by
    refine took.skips ?_
    rw [took.found, map_some, Option.some_inj] at bracket
    rw [bracket]
    rfl
  refine .mono (continued_parses (?_ : ∀ inner : Parser source, inner.position = entered.position →
    Mirrors alike _ _ inner fun _ after => entered.position ≤ after.position ∧ Skips input isPlain entered after)) ?_
  · intro inner position
    refine skipLayout_parses.bind ?_
    intro _ skipped ahead layout
    refine (separated_parses (fun _ middle => Skips input isPlain skipped middle) (.refl rfl)
      (fun _ => ⟨_, rfl, rfl, trivial⟩) ?_ ?_).bind ?_
    · intro _ one two _ gap plain
      exact plain.trans (gap.plain rfl)
    · intro _ middle ahead' plain
      refine .mono (ready.typeReference (by grind)) ?_
      intro reference after _ parsed
      exact ⟨plain.trans parsed.plain, parsed.taken⟩
    · intro typeArguments filled ahead' plain
      refine expectDelimiter_parses.bind ?_
      intro close after ahead'' closed
      have layoutPlain : Skips input isPlain inner skipped := layout.skips.plain rfl
      have closePlain : Skips input isPlain filled after := closed.passes.plain rfl
      have start : Skips input isPlain entered inner := .refl position
      exact .pure ⟨by grind, start.trans (layoutPlain.trans (plain.trans closePlain))⟩
  · rintro _ after _ ⟨inside, ⟨ordered, plain⟩, position⟩
    have final : Skips input isPlain inside after := .refl position
    exact ⟨by grind, opening.trans (plain.trans final)⟩

theorem parseBracketPostfix_parses (operand : Operand input first expression parser) :
    ready.Keeps (parseBracketPostfix · expression) parser (Extended input first parser) := by
  have inside := lt_length_of_kind bracket
  refine assume fun valid => ?_
  refine answers (bracketIsFollowedByCall_answers valid inside) ?_
  intro followed call
  split
  · next generic =>
    rw [Bool.and_eq_true] at generic
    obtain ⟨found, beyond, parenthesis⟩ := call generic.2
    refine (parseExplicitTypeArguments_parses ready from_ bracket).bind ?_
    rintro typeArguments closed later ⟨taken, plain⟩
    refine skipInline_parses.bind ?_
    intro _ skipped ahead gap
    have operand' := (operand.later later).later ahead
    refine reads rfl rfl ?_
    split
    · next called =>
      refine Mirrors.mono (parseCall_parses ready (by grind) (lt_length_of_beq called) operand') ?_
      rintro call after _ ⟨extended, onward⟩
      exact ⟨extended, by grind⟩
    · -- the parenthesis that was seen is still ahead, so there is a token
      have before : skipped.position ≤ found := by
        by_contra passed
        have plainThere := plain.trans gap.plain found (Nat.le_of_lt beyond) (Nat.not_le.mp passed)
        rw [parenthesis] at plainThere
        cases plainThere
      have there := lt_length_of_kind parenthesis
      refine Mirrors.mono (parseIndex_parses ready (by grind) (by omega) operand') ?_
      rintro index after _ ⟨extended, onward⟩
      exact ⟨extended, by grind⟩
  · exact parseIndex_parses ready from_ inside operand

end

omit ready in
theorem parseMember_parses (inside : parser.position < input.tokens.length) (operand : Operand input first target parser) :
    Parses alike (parseMember target) parser (Extended input first parser) := by
  refine (advance_inside_parses inside).bind ?_
  rintro _ entered later ⟨opened, took⟩
  refine skipInline_bind ?_
  intro skipped ahead
  refine parseIdentifier_parses.bind ?_
  rintro member after ahead' ⟨parsed, _⟩
  refine spanned_bind first target.span.opens member.span.closes (by grind) ?_
  intro region spanned
  exact .pure ⟨⟨spanned, by rintro _ ⟨⟩⟩, by grind⟩

omit ready in
/-- A postfix form as a further turn. -/
theorem again_parses {rule : ParseM source (Expression source.Region)} (from_ : second.position ≤ parser.position)
    (parses : Mirrors alike rule rule' parser (Extended input first parser)) :
    Mirrors alike (do return .again (← rule)) (do return .again (← rule')) parser (Extends input first second) := by
  refine parses.bind ?_
  rintro expression after _ ⟨operand, taken⟩
  exact .pure ⟨operand, Nat.lt_of_le_of_lt from_ taken⟩

theorem parsePostfixStep_parses (from_ : least ≤ parser.position) (entered : Later input first parser)
    (operand : Operand input first expression parser) :
    ready.Keeps (parsePostfixStep · expression) parser (Extends input first parser) := by
  refine checkCancelled_parses.bind ?_
  intro _ polled ahead unmoved
  refine skipInline_bind ?_
  intro skipped ahead'
  have operand := (operand.later ahead).later ahead'
  have enough : least ≤ skipped.position := by grind
  have onward : parser.position ≤ skipped.position := by grind
  refine reads rfl rfl ?_
  split
  · next colon =>
    split
    · next named =>
      have whole := Later.trans entered (Later.trans ahead ahead')
      refine Mirrors.mono (parseQualifiedPostfix_parses whole (lt_length_of_kind colon) operand named) ?_
      rintro (_ | _) after _ made
      · exact ⟨made.1, Nat.lt_of_le_of_lt onward made.2⟩
      · exact made
    · exact Parses.pure operand
  · next brace =>
    refine answers startsNominalRecord_answers ?_
    intro _ _
    split
    · next record =>
      rw [Bool.and_eq_true] at record
      exact again_parses onward (parseNominalRecord_parses ready enough (lt_length_of_kind brace) operand record.1)
    · exact Parses.pure operand
  · next parenthesis =>
    exact again_parses onward (parseCall_parses ready enough (lt_length_of_kind parenthesis) operand)
  · next bracket => exact again_parses onward (parseBracketPostfix_parses ready enough bracket operand)
  · next dot => exact again_parses onward (parseMember_parses (lt_length_of_kind dot) operand)
  · exact Parses.pure operand

theorem parsePostfix_parses (from_ : least ≤ parser.position) :
    ready.Keeps parsePostfix parser fun expression after => Parsed input parser expression.span after := by
  refine checkCancelled_parses.bind ?_
  intro _ polled ahead unmoved
  refine (parsePrimary_parses ready (by grind)).bind ?_
  intro expression parsed ahead' operand
  have operand := operand.after ahead
  have entered := Later.trans ahead ahead'
  refine iterate_parses (fun expression middle => Operand input parser expression middle) operand ?_
  intro expression middle later operand
  refine Mirrors.mono (parsePostfixStep_parses ready (by grind) (Later.trans entered later) operand) ?_
  rintro (_ | _) after _ made
  · exact made
  · exact made.toParsed

/-! ## Operators -/

theorem parseUnary_parses (from_ : least ≤ parser.position) :
    ready.Keeps parseUnary parser fun expression after => Parsed input parser expression.span after := by
  refine checkCancelled_parses.bind ?_
  intro _ polled ahead unmoved
  refine reads rfl rfl ?_
  split
  · refine Mirrors.mono (parsePostfix_parses ready (by grind)) ?_
    intro expression after _ parsed
    exact parsed.of_position unmoved.position
  · next operator found =>
    rw [bind_eq_some_iff] at found
    obtain ⟨kind, found, _⟩ := found
    refine takeExpected_bind (lt_length_of_kind found) ?_
    intro token taken later took
    refine skipLayout_bind ?_
    intro skipped ahead'
    refine (ready.unary (by grind)).bind ?_
    intro operand after ahead'' parsed
    refine spanned_bind parser token.span.opens operand.span.closes (by grind) ?_
    intro region spanned
    exact Parses.pure spanned

end Rules

section Ladder

variable {operand : ParseM source (Expression source.Region)} {operators : TokenKind → Option BinaryOperator}

theorem binary_parses {left right : Expression source.Region} {operator : BinaryOperator} {region : source.Region}
    (ordered : left.span.start ≤ right.span.stop) :
    Parses alike (binary left operator region right) parser fun expression after =>
      after = parser ∧ expression.span.start = left.span.start ∧ expression.span.stop = right.span.stop := by
  refine span_bind left.span.opens right.span.closes ordered ?_
  intro whole starts stops
  exact .pure ⟨rfl, starts, stops⟩

/-- Each level of the ladder parses what its operands parse. -/
theorem leftAssociative_parses (operands : ∀ state, Later input parser state →
      Mirrors alike operand operand' state fun expression after => Parsed input state expression.span after) :
    Mirrors alike (leftAssociative operators operand) (leftAssociative operators operand') parser fun expression after =>
      Parsed input parser expression.span after := by
  refine (operands parser (Later.refl _)).bind ?_
  intro first parsed later parsed'
  refine iterate_parses (fun expression middle => Parsed input parser expression.span middle) parsed' ?_
  intro expression middle later' left
  refine checkCancelled_parses.bind ?_
  intro _ polled ahead unmoved
  refine skipInline_bind ?_
  intro skipped ahead'
  have onward := Later.trans later (Later.trans later' (Later.trans ahead ahead'))
  refine reads rfl rfl ?_
  split
  · have longer : Parsed input parser expression.span skipped := ⟨by grind, by grind, by grind⟩
    exact Parses.pure longer
  · next operator found =>
    rw [bind_eq_some_iff] at found
    obtain ⟨kind, found, _⟩ := found
    refine takeExpected_bind (lt_length_of_kind found) ?_
    intro token taken later'' took
    refine skipLayout_bind ?_
    intro skipped' ahead''
    refine (operands skipped' (Later.trans onward (Later.trans later'' ahead''))).bind ?_
    intro right after onward' right'
    refine (binary_parses (by grind)).bind ?_
    rintro whole _ _ ⟨rfl, starts, stops⟩
    exact Parses.pure ⟨⟨by grind, by grind, by grind⟩, by grind⟩

theorem nonAssociative_parses {message : String} (operands : ∀ state, Later input parser state →
      Mirrors alike operand operand' state fun expression after => Parsed input state expression.span after) :
    Mirrors alike (nonAssociative operators message operand) (nonAssociative operators message operand') parser fun expression after =>
      Parsed input parser expression.span after := by
  refine (operands parser (.refl _)).bind ?_
  intro left parsed later left'
  refine skipInline_bind ?_
  intro skipped ahead
  refine reads rfl rfl ?_
  split
  · have longer : Parsed input parser left.span skipped := ⟨by grind, by grind, by grind⟩
    exact Parses.pure longer
  · next operator found =>
    rw [bind_eq_some_iff] at found
    obtain ⟨kind, found, _⟩ := found
    refine takeExpected_bind (lt_length_of_kind found) ?_
    intro token taken later' took
    refine skipLayout_bind ?_
    intro skipped' ahead'
    have onward := Later.trans (.trans later ahead) (.trans later' ahead')
    refine (operands skipped' onward).bind ?_
    intro right after onward' right'
    refine (binary_parses (by grind)).bind ?_
    rintro whole _ _ ⟨rfl, starts, stops⟩
    refine skipInline_bind ?_
    intro final ahead''
    refine reads rfl rfl ?_
    split
    · exact Mirrors.stops invalidHere_parses
    have longer : Parsed input parser whole.span final := ⟨by grind, by grind, by grind⟩
    exact Parses.pure longer

end Ladder

section Chains

variable {grammar grammar' : Grammar source} {least : Nat} (ready : Ready alike grammar grammar' least)
include ready

theorem parseExpression_parses (from_ : least ≤ parser.position) :
    ready.Keeps parseExpression parser fun expression after =>
      Parsed input parser expression.span after := by
  refine checkCancelled_parses.bind ?_
  intro _ polled ahead unmoved
  have climbs : ready.Keeps parseEquality polled fun expression after =>
      Parsed input polled expression.span after := by
    refine nonAssociative_parses fun state later => ?_
    refine nonAssociative_parses fun state' later' => ?_
    refine nonAssociative_parses fun state'' later'' => ?_
    refine leftAssociative_parses fun state3 later3 => ?_
    refine leftAssociative_parses fun state4 later4 => ?_
    exact parseUnary_parses ready (by grind)
  refine .mono climbs ?_
  intro expression after _ parsed
  exact parsed.of_position unmoved.position

/-! ## Stages and chains -/

theorem parseCommandItems_parses {start stop : Nat} (from_ : least ≤ parser.position)
    (reached : Reached input start stop parser) :
    ready.Keeps (parseCommandItems · stop) parser fun result after => Reached input start result.2 after := by
  refine iterate_parses (fun current middle => Reached input start current.2 middle) reached ?_
  rintro ⟨items, stop⟩ middle later reached
  refine skipInline_bind ?_
  intro skipped ahead
  refine answers atCommandEnd_answers ?_
  intro _ _
  split
  · exact Parses.pure (reached.later ahead)
  refine (parseCommandItem_parses ready (by grind)).bind ?_
  intro item after _ parsed
  exact .pure ⟨parsed.reached (by grind), by grind⟩

omit ready in
theorem takeForcedMarker_parses : Parses alike takeForcedMarker parser fun marker after =>
    ∀ token, marker = some token → Took input parser token after := by
  refine answers startsForcedCommand_answers ?_
  intro forced pair
  split
  · next starts =>
    have := pair starts
    refine takeExpected_bind (by omega) ?_
    intro token after _ took
    refine Parses.pure ?_
    rintro _ ⟨⟩
    exact took
  · refine Parses.pure ?_
    rintro _ ⟨⟩

omit ready in
theorem requireAdjacent_parses {marker : Option (PlacedToken source)} {word : Word source.Region} :
    Parses alike (requireAdjacent marker word) parser fun _ after => after = parser := by
  unfold requireAdjacent
  split
  · split
    · exact invalidAt_parses
    · exact .pure rfl
  · exact .pure rfl

omit ready in
/-- The token before a state past the first one ends where the state is. -/
theorem previousEnd_answers (valid : Entered input parser) (past : 0 < parser.position) :
    Answers alike previousEnd parser fun stop => IsBoundary source.text stop ∧ stop = input.offset parser.position := by
  have inside : parser.position - 1 < input.tokens.length := by
    have := valid.within
    omega
  have found := List.getElem?_eq_getElem inside
  refine ⟨_, rfl, rfl, ?_⟩
  rw [found]
  refine ⟨SourceFile.Region.closes _, ?_⟩
  have stops := valid.sound.contiguous found
  rwa [Nat.sub_add_cancel past] at stops

theorem parseCommandStage_parses (from_ : least ≤ parser.position) :
    ready.Keeps parseCommandStage parser fun stage after => Parsed input parser stage.span after := by
  refine takeForcedMarker_parses.bind ?_
  intro marker marked ahead took
  refine (parseWord_parses ready (by grind)).bind ?_
  intro word worded ahead' parsed
  refine requireAdjacent_parses.bind ?_
  rintro _ checked _ rfl
  have head : IsBoundary source.text (marker.elim word.span.start (·.span.start)) ∧
      input.offset parser.position ≤ marker.elim word.span.start (·.span.start) ∧
      marker.elim word.span.start (·.span.start) ≤ input.offset checked.position := by
    cases marker with
    | none => exact ⟨word.span.opens, by grind, by grind⟩
    | some token =>
      exact ⟨token.span.opens, by grind, by grind⟩
  obtain ⟨opens, starts, ordered⟩ := head
  refine assume fun valid => ?_
  refine answers (previousEnd_answers valid (by grind)) ?_
  rintro _ ⟨closes, rfl⟩
  refine span_bind opens closes ordered ?_
  intro headSpan headStarts headStops
  have reached : Reached input headSpan.start headSpan.stop checked :=
    ⟨headSpan.closes, headSpan.ordered, Nat.le_of_eq headStops⟩
  refine (parseCommandItems_parses ready (by grind) reached).bind ?_
  rintro ⟨items, stop⟩ after ahead'' reached'
  refine span_bind headSpan.opens reached'.closes reached'.ordered ?_
  intro region regionStarts regionStops
  have spanned : Parsed input parser region after := ⟨by grind, by grind, by grind⟩
  exact .pure spanned

omit ready in
theorem checkStageStart_parses : Parses alike checkStageStart parser fun _ after => after = parser := by
  refine reads rfl rfl ?_
  dsimp only
  split
  · exact stops invalidHere_parses
  split
  · exact stops invalidHere_parses
  refine answers startsForcedCommand_answers ?_
  intro _ _
  split
  · refine reads rfl rfl ?_
    split
    · exact incompleteHere_parses
    · exact invalidHere_parses
  · exact Parses.pure rfl

theorem parseStage_parses (from_ : least ≤ parser.position) :
    ready.Keeps parseStage parser fun stage after => Parsed input parser stage.span after := by
  refine skipInline_bind ?_
  intro skipped ahead
  refine checkStageStart_parses.bind ?_
  rintro _ checked _ rfl
  have enough : least ≤ checked.position := by grind
  refine answers startsForcedCommand_answers ?_
  intro _ _
  refine answers startsExpressionStage_answers ?_
  intro _ _
  split
  · refine Mirrors.mono (parseCommandStage_parses ready enough) ?_
    intro stage after _ parsed
    exact ⟨by grind, by grind, by grind⟩
  · refine (parseExpression_parses ready enough).bind ?_
    intro expression after _ parsed
    have spanned : Parsed input parser expression.span after := ⟨by grind, by grind, by grind⟩
    exact Parses.pure spanned

omit ready in
/-- Operands joined by operators parse what the operands parse. -/
theorem joined_parses {α ω : Type} {operators : TokenKind → Option ω} {reason : IncompleteReason}
    {operand operand' : ParseM source α} {spanOf : α → source.Region}
    (operands : ∀ state, Later input parser state →
      Mirrors alike operand operand' state fun value after => Parsed input state (spanOf value) after) :
    Mirrors alike (joined operators reason operand spanOf) (joined operators reason operand' spanOf) parser fun result after =>
      Parsed input parser result.2.2 after := by
  refine (operands parser (.refl _)).bind ?_
  intro first parsed later first'
  let invariant := fun (current : List α × List (AstNode source.Region ω) × Nat) (middle : Parser source) =>
    Reached input (spanOf first).start current.2.2 middle
  refine iterate_bind invariant invariant ?_ ?_ ?_
  · exact ⟨(spanOf first).closes, (spanOf first).ordered, first'.stops⟩
  · rintro ⟨terms, found, stop⟩ middle later' reached
    refine checkCancelled_parses.bind ?_
    intro _ polled ahead unmoved
    refine skipInline_bind ?_
    intro skipped ahead'
    have onward := Later.trans later (.trans later' (.trans ahead ahead'))
    refine reads rfl rfl ?_
    split
    · exact Parses.pure ((reached.later ahead).later ahead')
    · next operator there =>
      rw [bind_eq_some_iff] at there
      obtain ⟨kind, there, _⟩ := there
      refine takeExpected_bind (lt_length_of_kind there) ?_
      intro token taken later'' took
      refine skipLayout_bind ?_
      intro skipped' ahead''
      refine reads rfl rfl ?_
      split
      · exact stops incompleteAt_parses
      refine (operands skipped' (.trans onward (.trans later'' ahead''))).bind ?_
      intro term after _ parsed'
      exact .pure ⟨parsed'.reached (by grind), by grind⟩
  · rintro ⟨terms, found, stop⟩ middle later' reached
    refine span_bind (spanOf first).opens reached.closes reached.ordered ?_
    intro region opens closes
    have spanned : Parsed input parser region middle := ⟨by grind, by grind, by grind⟩
    exact .pure spanned

theorem parsePipeline_parses (from_ : least ≤ parser.position) :
    ready.Keeps parsePipeline parser fun pipeline after => Parsed input parser pipeline.span after := by
  refine checkCancelled_parses.bind ?_
  intro _ polled ahead unmoved
  refine (joined_parses fun state later => parseStage_parses ready (by grind)).bind ?_
  rintro ⟨_, _, span⟩ after _ parsed
  have spanned : Parsed input parser span after := parsed.of_position unmoved.position
  exact .pure spanned

theorem parseAndChain_parses (from_ : least ≤ parser.position) :
    ready.Keeps parseAndChain parser fun chain after => Parsed input parser chain.span after := by
  refine checkCancelled_parses.bind ?_
  intro _ polled ahead unmoved
  refine (joined_parses fun state later => parsePipeline_parses ready (by grind)).bind ?_
  rintro ⟨_, _, span⟩ after _ parsed
  have spanned : Parsed input parser span after := parsed.of_position unmoved.position
  exact .pure spanned

theorem parseConditionalChain_parses (from_ : least ≤ parser.position) :
    ready.Keeps parseConditionalChain parser fun chain after => Parsed input parser chain.span after := by
  refine checkCancelled_parses.bind ?_
  intro _ polled ahead unmoved
  refine (joined_parses fun state later => parseAndChain_parses ready (by grind)).bind ?_
  rintro ⟨_, _, span⟩ after _ parsed
  have spanned : Parsed input parser span after := parsed.of_position unmoved.position
  exact .pure spanned

end Chains

end Opaal.Syntax.Parser
