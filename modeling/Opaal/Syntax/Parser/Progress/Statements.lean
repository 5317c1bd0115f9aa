import Opaal.Syntax.Parser.Progress.Expressions
import Opaal.Syntax.Parser.Watched

/-!
# Statements keep the order

Every statement form takes a token, and so does every turn of a statement list
that goes on.  The rules are the watched ones; unwatched, they are asked about only
where the predicate never cancels.
-/

namespace Opaal.Syntax.Parser

open Opaal.Machine List
open Opaal.Text Mirrors

variable {source : SourceFile} {input : ParserInput source} {alike : Alike input} {parser : Parser source}

/-! ## Module imports and exports -/

theorem lastComponent_ends (path : List Char) : ∃ front, path = front ++ lastComponent path := by
  refine ⟨(path.reverse.dropWhile (· != '/')).reverse, ?_⟩
  unfold lastComponent
  rw [← reverse_append, takeWhile_append_dropWhile, reverse_reverse]

theorem stemOf_starts (component : List Char) : ∃ back, component = stemOf component ++ back := by
  unfold stemOf
  split
  · exact ⟨_, (take_append_drop _ component).symm⟩
  · exact ⟨[], (append_nil component).symm⟩

theorem unquoted_quoted (body : List Char) : unquoted ('\'' :: (body ++ ['\''])) = some body := by
  have opening : tailAt ('\'' :: (body ++ ['\''])) 1 = some (body ++ ['\'']) := tailAt_width ['\''] _
  have measure : width ('\'' :: (body ++ ['\''])) - 1 - 1 = width body := by
    have quote : width ['\''] = 1 := rfl
    have whole : width ('\'' :: (body ++ ['\''])) = 1 + (width body + 1) := by
      rw [width_cons, width_append, quote]
      rfl
    omega
  unfold unquoted
  simp only [opening, measure, Option.bind_eq_bind, Option.bind_some]
  exact headAt_width body ['\'']

/-- The span of a module's name inside the path it is imported from. -/
theorem parseLocalAlias_parses {path : source.Region} {body : List Char}
    (quoted : source.slice path.toSpan = .ok ('\'' :: (body ++ ['\'']))) :
    Parses alike (parseLocalAlias path) parser fun name after =>
      after = parser ∧ path.start ≤ name.span.start ∧ name.span.stop ≤ path.stop := by
  obtain ⟨front, middle, back, textEq, starts, stops, sliced⟩ := path.covers.split
  rw [quoted, Except.ok.injEq] at sliced
  obtain ⟨directory, bodyEq⟩ := lastComponent_ends body
  obtain ⟨suffix, componentEq⟩ := stemOf_starts (lastComponent body)
  have quote : width ['\''] = 1 := rfl
  have middleWidth : width middle = 1 + width body + 1 := by
    rw [← sliced, width_cons, width_append, quote]
    rfl
  have bodyWidth : width body = width directory + width (lastComponent body) := by
    rw [← width_append, ← bodyEq]
  have componentWidth : width (lastComponent body) = width (stemOf (lastComponent body)) + width suffix := by
    rw [← width_append, ← componentEq]
  have startEq : path.stop - 1 - width (lastComponent body) = width front + 1 + width directory := by omega
  have cut : source.text = (front ++ '\'' :: directory) ++ stemOf (lastComponent body) ++ (suffix ++ ['\''] ++ back) := by
    rw [textEq, ← sliced]
    conv_lhs => rw [bodyEq, componentEq]
    simp
  have opens : IsBoundary source.text (path.stop - 1 - width (lastComponent body)) := by
    refine ⟨front ++ '\'' :: directory, stemOf (lastComponent body) ++ (suffix ++ ['\''] ++ back), ?_, ?_⟩
    · rw [cut, append_assoc]
    · rw [startEq, width_append, width_cons, Nat.add_assoc]
      rfl
  have closes : IsBoundary source.text
      (path.stop - 1 - width (lastComponent body) + width (stemOf (lastComponent body))) := by
    refine ⟨front ++ '\'' :: directory ++ stemOf (lastComponent body), suffix ++ ['\''] ++ back, cut, ?_⟩
    rw [startEq, width_append, width_append, width_cons, Nat.add_assoc (width front) 1]
    rfl
  unfold parseLocalAlias
  rw [quoted]
  dsimp only
  rw [unquoted_quoted]
  refine reads rfl rfl ?_
  refine span_bind opens closes (Nat.le_add_right _ _) ?_
  intro region regionStarts regionStops
  split
  · exact .stops invalidAt_parses
  refine .pure ⟨rfl, ?_, ?_⟩
  · show path.start ≤ region.start
    omega
  · show region.stop ≤ path.stop
    omega

theorem parseModuleMember_parses : Parses alike parseModuleMember parser fun _ after =>
    parser.position < after.position := by
  refine checkCancelled_parses.bind ?_
  intro _ polled ahead unmoved
  refine parseIdentifier_parses.bind ?_
  rintro member named ahead' ⟨parsed, _⟩
  refine skipLayout_bind ?_
  intro skipped ahead''
  refine reads rfl rfl ?_
  split
  · refine take_parses.bind ?_
    intro _ taken onward _
    refine skipLayout_bind ?_
    intro skipped' onward'
    refine parseIdentifier_parses.bind ?_
    rintro localName after onward'' ⟨parsed', _⟩
    exact span_pure member.span.opens localName.span.closes (by grind) fun _ => by grind
  · exact span_pure member.span.opens member.span.closes member.span.ordered fun _ => by grind

section

variable {from_ : ModuleImportSource source.Region} {start : Nat}

/-- A closing delimiter ends a list of selectors or entries; a comma continues it. -/
theorem parseModuleMembers_parses {opened : source.Region} (starts : start ≤ opened.start)
    (behind : opened.start ≤ input.offset parser.position) :
    Parses alike (parseModuleMembers from_ opened) parser fun entry after =>
      Reached input start (entryEnd entry) after := by
  refine skipLayout_bind ?_
  intro skipped ahead
  refine iterate_bind (fun _ _ => True)
    (fun (result : List (ModuleMemberSelector source.Region) × PlacedToken source) after =>
      Reached input opened.start result.2.span.stop after) trivial ?_ ?_
  · intro members middle later _
    refine parseModuleMember_parses.bind ?_
    intro member selected ahead' taken
    refine skipLayout_bind ?_
    intro skipped' ahead''
    refine takeIf_bind ?_ ?_
    · refine expectOperator_parses.bind ?_
      intro _ comma onward _
      refine skipLayout_bind ?_
      intro skipped'' onward'
      refine takeIf_bind ?_ ?_
      · exact .pure ⟨trivial, by grind⟩
      · intro close after _ closed
        exact .pure (closed.reached (by grind))
    · intro close after _ closed
      exact .pure (closed.reached (by grind))
  · rintro ⟨members, close⟩ after later reached
    refine span_bind opened.opens reached.closes reached.ordered ?_
    intro region opens closes
    have ended : Reached input start region.stop after := ⟨region.closes, by grind, by grind⟩
    exact .pure ended

/-- What is known of the source of an import. -/
def SourceParsed (input : ParserInput source) (first : Parser source) (from_ : ModuleImportSource source.Region)
    (second : Parser source) : Prop :=
  match from_ with
  | .local_ path => ∃ body, source.slice path.toSpan = .ok ('\'' :: (body ++ ['\'']))
  | .standard module _ _ | .project module _ _ => Parsed input first module.span second

theorem parseQualifiedModule_parses : Parses alike parseQualifiedModule parser fun from_ after =>
    Parsed input parser from_.span after ∧ SourceParsed input parser from_ after := by
  refine parseIdentifier_parses.bind ?_
  rintro namespace_ named ahead ⟨parsed, _⟩
  dsimp only
  split
  · exact stops invalidAt_parses
  refine expectOperator_parses.bind ?_
  intro _ colon ahead' _
  refine expectOperator_parses.bind ?_
  intro _ colons ahead'' _
  refine parseIdentifier_parses.bind ?_
  rintro module after onward ⟨parsed', _⟩
  refine spanned_bind parser namespace_.span.opens module.span.closes (by grind) ?_
  intro region spanned
  have inside : Parsed input parser module.span after := ⟨by grind, by grind, by grind⟩
  split
  · split
    · exact stops invalidAt_parses
    · exact .pure ⟨spanned, inside⟩
  · exact .pure ⟨spanned, inside⟩

theorem parseModuleImportSource_parses : Parses alike parseModuleImportSource parser fun from_ after =>
    Parsed input parser from_.span after ∧ SourceParsed input parser from_ after := by
  refine reads rfl rfl ?_
  split
  · next quoted =>
    refine assume fun valid => ?_
    refine takeExpected_bind (lt_length_of_kind quoted) ?_
    intro path after _ took
    split
    · exact stops invalidAt_parses
    rw [took.found, Option.map_some, Option.some_inj] at quoted
    exact .pure ⟨took.toParsed, valid.sound.quoted path (mem_of_getElem? took.found) quoted⟩
  · exact parseQualifiedModule_parses
  · exact expected_parses

/-- An entry that binds an alias ends where the later of its source and its alias
does. -/
theorem alias_reached {name : Identifier source.Region} {after : Parser source}
    (ends : Reached input start from_.span.stop after) (bounded : name.span.stop ≤ input.offset after.position) :
    Reached input start (entryEnd (.alias_ { source := from_, alias_ := name })) after := by
  have closes : IsBoundary source.text (max from_.span.stop name.span.stop) := by
    rcases Nat.le_total from_.span.stop name.span.stop with ordered | ordered
    · rw [Nat.max_eq_right ordered]
      exact name.span.closes
    · rw [Nat.max_eq_left ordered]
      exact ends.closes
  have ordered := ends.ordered
  have within := ends.within
  refine ⟨closes, ?_, ?_⟩
  · show start ≤ max from_.span.stop name.span.stop
    omega
  · show max from_.span.stop name.span.stop ≤ _
    omega

theorem parseModuleImportEntry_parses : Parses alike parseModuleImportEntry parser fun entry after =>
    parser.position < after.position ∧ Reached input (input.offset parser.position) (entryEnd entry) after := by
  refine checkCancelled_parses.bind ?_
  intro _ polled ahead unmoved
  refine parseModuleImportSource_parses.bind ?_
  rintro from_ sourced ahead' ⟨parsed, known⟩
  refine skipInline_bind ?_
  intro skipped ahead''
  have ends : Reached input (input.offset parser.position) from_.span.stop skipped :=
    ⟨from_.span.closes, by grind, by grind⟩
  have taken : parser.position < skipped.position := by grind
  refine takeIf_bind ?_ ?_
  · refine reads rfl rfl ?_
    split
    · refine take_parses.bind ?_
      intro _ named onward _
      refine skipInline_bind ?_
      intro skipped' onward'
      refine parseIdentifier_parses.bind ?_
      rintro name after onward'' ⟨parsed', _⟩
      have ends' := (ends.later onward).later (.trans onward' onward'')
      exact .pure ⟨by grind, alias_reached ends' parsed'.stops⟩
    split
    · next module _ _ =>
      have known : Parsed input polled module.span sourced := known
      exact Parses.pure ⟨taken, alias_reached ends (by grind)⟩
    · next module _ _ =>
      have known : Parsed input polled module.span sourced := known
      exact Parses.pure ⟨taken, alias_reached ends (by grind)⟩
    · next path =>
      obtain ⟨body, quoted⟩ := known
      refine (parseLocalAlias_parses quoted).bind ?_
      rintro name _ _ ⟨rfl, _, bounded⟩
      exact .pure ⟨taken, alias_reached ends (Nat.le_trans bounded ends.within)⟩
  · intro colon coloned onward took
    refine expectOperator_parses.bind ?_
    intro _ colons onward' _
    refine skipInline_bind ?_
    intro skipped' onward''
    refine expectDelimiter_parses.bind ?_
    intro opened entered onward3 took'
    have starts : input.offset parser.position ≤ opened.span.start := by grind
    refine .mono (continuedAlways_parses fun inner position => parseModuleMembers_parses starts (by grind)) ?_
    rintro entry after _ ⟨inside, reached, position⟩
    refine ⟨by grind, reached.closes, reached.ordered, ?_⟩
    rw [position]
    exact reached.within

theorem parseModuleImportGroup_parses {start : source.Region} (behind : start.start ≤ input.offset parser.position) :
    Parses alike (parseModuleImportGroup start) parser fun _ after => parser.position < after.position := by
  refine skipLayout_bind ?_
  intro skipped ahead
  refine parseModuleImportEntry_parses.bind ?_
  rintro first parsed ahead' ⟨taken, _⟩
  refine iterate_bind (fun _ _ => True)
    (fun (result : List (ModuleImportEntry source.Region) × PlacedToken source) after =>
      Reached input start.start result.2.span.stop after) trivial ?_ ?_
  · intro entries middle later _
    refine skipLayout_bind ?_
    intro skipped' onward
    refine takeIf_bind ?_ ?_
    · refine expectOperator_parses.bind ?_
      intro _ comma onward' _
      refine skipLayout_bind ?_
      intro skipped'' onward''
      refine takeIf_bind ?_ ?_
      · refine parseModuleImportEntry_parses.bind ?_
        rintro entry after _ ⟨taken', _⟩
        exact .pure ⟨trivial, by grind⟩
      · intro close after _ closed
        exact .pure (closed.reached (by grind))
    · intro close after _ closed
      exact .pure (closed.reached (by grind))
  · rintro ⟨entries, close⟩ after later reached
    exact span_pure start.opens reached.closes reached.ordered fun _ => by grind

theorem parseModuleImport_parses (inside : parser.position < input.tokens.length) :
    Parses alike parseModuleImport parser fun _ after => parser.position < after.position := by
  refine takeExpected_bind inside ?_
  intro start entered later took
  refine skipInline_bind ?_
  intro skipped ahead
  refine takeIf_bind ?_ ?_
  · refine parseModuleImportEntry_parses.bind ?_
    rintro entry after ahead' ⟨taken, reached⟩
    exact span_pure start.span.opens reached.closes (by grind) fun _ => by grind
  · intro brace opened ahead' took'
    have group : ∀ inner : Parser source, inner.position = opened.position →
        Parses alike (parseModuleImportGroup start.span) inner fun _ after => inner.position < after.position := by
      intro inner position
      exact parseModuleImportGroup_parses (by grind)
    refine .mono (continuedAlways_parses fun inner position => (group inner position).anything) ?_
    rintro statement after onward ⟨_, _, _⟩
    grind

theorem parseModuleExportSelector_parses : Parses alike parseModuleExportSelector parser fun _ after =>
    parser.position < after.position := by
  refine parseIdentifier_parses.bind ?_
  rintro name named ahead ⟨parsed, _⟩
  refine skipWhile_parses.bind ?_
  intro _ skipped ahead' _
  refine takeIf_bind ?_ ?_
  · exact .pure (by grind)
  · intro star after _ took
    exact .pure (by grind)

theorem parseModuleNameList_parses {message : String} :
    Parses alike (parseModuleNameList message) parser fun result after => Parsed input parser result.2.span after := by
  refine expectDelimiter_parses.bind ?_
  intro _ opened ahead _
  refine skipLayout_bind ?_
  intro skipped ahead'
  refine reads rfl rfl ?_
  split
  · exact stops invalidHere_parses
  refine (separated_advances (fun _ => ⟨_, rfl, rfl, trivial⟩)
    fun _ _ => parseModuleExportSelector_parses).bind ?_
  intro names listed ahead'' _
  refine expectDelimiter_parses.bind ?_
  intro close after onward closed
  exact .pure ⟨by grind, by grind, by grind⟩

/-! ## Types -/

theorem parseTypeConstraints_parses {stop : Nat} (behind : start ≤ input.offset parser.position) :
    Mirrors alike (parseTypeConstraints stop) (parseTypeConstraints stop) parser fun result after => Reached input start result.2 after := by
  refine iterate_parses (fun _ _ => True) trivial ?_
  rintro ⟨constraints, _⟩ middle later _
  refine skipInline_bind ?_
  intro skipped ahead
  refine parseIdentifier_parses.bind ?_
  rintro constraint named ahead' ⟨parsed, _⟩
  split
  · exact invalidAt_parses
  split
  · exact stops invalidAt_parses
  refine skipInline_bind ?_
  intro skipped' ahead''
  have reached : Reached input start constraint.span.stop skipped' := (parsed.reached (by grind)).later ahead''
  refine takeIf_bind (.pure reached) ?_
  intro plus after _ took
  exact .pure ⟨trivial, by grind⟩

theorem parseTypeParameter_parses : Parses alike parseTypeParameter parser fun _ after =>
    parser.position < after.position := by
  refine parseIdentifier_parses.bind ?_
  rintro name named ahead ⟨parsed, _⟩
  refine skipInline_bind ?_
  intro skipped ahead'
  refine takeIf_bind ?_ ?_
  · exact span_pure name.span.opens name.span.closes name.span.ordered fun _ => by grind
  · intro colon coloned ahead'' took
    have behind : name.span.start ≤ input.offset coloned.position := by grind
    refine (parseTypeConstraints_parses behind).bind ?_
    rintro ⟨constraints, stop⟩ after onward reached
    exact span_pure name.span.opens reached.closes reached.ordered fun _ => by grind

theorem parseTypeParameters_parses : Parses alike parseTypeParameters parser fun _ _ => True := by
  refine skipInline_bind ?_
  intro skipped ahead
  refine takeIf_bind (.pure trivial) ?_
  intro bracket opened ahead' took
  refine skipLayout_bind ?_
  intro skipped' ahead''
  refine reads rfl rfl ?_
  split
  · exact stops invalidHere_parses
  refine (separated_advances (fun _ => ⟨_, rfl, rfl, trivial⟩) fun _ _ => parseTypeParameter_parses).bind ?_
  intro parameters listed onward _
  refine expectDelimiter_parses.bind ?_
  intro _ _ _ _
  exact .pure trivial

end

section Rules

variable {grammar grammar' : Grammar source} {least : Nat} (ready : Ready alike grammar grammar' least)
include ready

theorem parseNominalTypeField_parses (from_ : least ≤ parser.position) :
    ready.Moves parseNominalTypeField parser := by
  refine parseIdentifier_parses.bind ?_
  rintro name named ahead ⟨parsed, _⟩
  refine skipInline_bind ?_
  intro skipped ahead'
  refine expectOperator_parses.bind ?_
  intro _ colon ahead'' _
  refine skipInline_bind ?_
  intro skipped' onward
  refine (parseTypeReference_parses ready (by grind)).bind ?_
  intro reference after onward' parsed'
  exact span_pure name.span.opens reference.span.closes (by grind) fun _ => by grind

variable (from_ : least ≤ parser.position) (inside : parser.position < input.tokens.length)
  {topLevel watched : Bool} {depth found : Nat} {first second start : Parser source} {token : PlacedToken source}
  {documentation : Option (DocumentationBlock source.Region)} {closing : Option Delimiter}

include from_ inside in
theorem parseNominalType_parses :
    ready.Moves (parseNominalType · topLevel) parser := by
  unfold parseNominalType
  split
  · exact stops invalidHere_parses
  refine takeExpected_bind inside ?_
  intro start entered later took
  refine skipInline_bind ?_
  intro skipped ahead
  refine parseIdentifier_parses.bind ?_
  rintro name named ahead' _
  refine parseTypeParameters_parses.bind ?_
  intro typeParameters typed ahead'' _
  refine skipInline_bind ?_
  intro skipped' onward
  refine expectOperator_parses.bind ?_
  intro _ assigned onward' _
  refine skipLayout_bind ?_
  intro laid onward''
  refine expectDelimiter_parses.bind ?_
  intro _ opened onward3 _
  refine skipLayout_bind ?_
  intro laid' onward4
  refine (separated_advances (fun _ => ⟨_, rfl, rfl, trivial⟩)
    fun _ _ => parseNominalTypeField_parses ready (by grind)).bind ?_
  intro fields filled onward5 _
  refine expectDelimiter_parses.bind ?_
  intro close after onward6 closed
  exact span_pure start.span.opens close.span.closes (by grind) fun _ => by grind

theorem parseVariantDeclaration_parses (from_ : least ≤ parser.position) :
    ready.Moves parseVariantDeclaration parser := by
  refine parseIdentifier_parses.bind ?_
  rintro name named ahead ⟨parsed, _⟩
  refine skipInline_bind ?_
  intro skipped ahead'
  refine takeIf_bind ?_ ?_
  · exact span_pure name.span.opens name.span.closes name.span.ordered fun _ => by grind
  · intro parenthesis opened ahead'' took
    refine skipLayout_bind ?_
    intro laid onward
    refine (separated_advances (fun _ => ⟨_, rfl, rfl, trivial⟩) fun _ _ =>
      (parseTypeReference_parses ready (by grind)).mono fun _ _ _ parsed => parsed.taken).bind ?_
    intro payload filled onward' _
    refine expectDelimiter_parses.bind ?_
    intro close after onward'' closed
    exact span_pure name.span.opens close.span.closes (by grind) fun _ => by grind

include from_ inside in
theorem parseVariantType_parses :
    ready.Moves (parseVariantType · topLevel) parser := by
  unfold parseVariantType
  split
  · exact stops invalidHere_parses
  refine takeExpected_bind inside ?_
  intro start entered later took
  refine skipInline_bind ?_
  intro skipped ahead
  refine parseIdentifier_parses.bind ?_
  rintro name named ahead' _
  refine parseTypeParameters_parses.bind ?_
  intro typeParameters typed ahead'' _
  refine skipLayout_bind ?_
  intro laid onward
  refine expectDelimiter_parses.bind ?_
  intro _ opened onward' _
  refine skipLayout_bind ?_
  intro laid' onward''
  refine (separated_advances (fun _ => ⟨_, rfl, rfl, trivial⟩)
    fun _ _ => parseVariantDeclaration_parses ready (by grind)).bind ?_
  intro variants filled onward3 _
  split
  · exact stops invalidHere_parses
  refine expectDelimiter_parses.bind ?_
  intro close after onward4 closed
  exact span_pure start.span.opens close.span.closes (by grind) fun _ => by grind

/-! ## Bindings -/

include from_ inside in
theorem parseDeclaration_parses {isMutable : Bool} :
    ready.Moves (parseDeclaration · isMutable) parser := by
  refine takeExpected_bind inside ?_
  intro start entered later took
  refine skipInline_bind ?_
  intro skipped ahead
  refine (parsePattern_parses ready (by grind)).bind ?_
  intro pattern matched ahead' parsed
  split
  · exact invalidAt_parses
  refine skipInline_bind ?_
  intro skipped' ahead''
  refine (parseOptionalType_parses ready (by grind) fun _ => skipInline_parses.anything).bind ?_
  intro annotatedType typed onward _
  refine skipInline_bind ?_
  intro skipped'' onward'
  refine expectOperator_parses.bind ?_
  intro _ assigned onward'' _
  refine skipLayout_bind ?_
  intro laid onward3
  refine (parseExpression_parses ready (by grind)).bind ?_
  intro value after onward4 parsed'
  exact span_pure start.span.opens value.span.closes (by grind) fun _ => by grind

omit ready in
/-- Skipping never passes a token that is not skipped. -/
theorem Skipped.at_most (skipped : Skipped input (isInlineIn depth) first second) (ordered : first.position ≤ found)
    (there : input.tokens[found]? = some token) (stops : isInlineIn depth token.kind = false) :
    second.position ≤ found := by
  by_contra passed
  have accepted := skipped.skips found ordered (Nat.not_le.mp passed)
  rw [there, Option.map_some, Option.any_some, stops] at accepted
  cases accepted

omit ready in
/-- Skipping stops at the first token that is not skipped, unless it is cancelled. -/
theorem Skipped.stops_at (skipped : Skipped input (isInlineIn depth) first second) (going : ¬ Tripped input second)
    (ordered : first.position ≤ found) (onward : first.position ≤ second.position) (there : input.tokens[found]? = some token)
    (stops : isInlineIn depth token.kind = false)
    (between : ∀ index, first.position ≤ index → index < found → (input.tokens[index]?.map (·.kind)).any isInline = true) : second.position = found := by
  refine Nat.le_antisymm (skipped.at_most ordered there stops) (Nat.not_lt.mp fun short => ?_)
  have accepted := between second.position onward short
  have refused := skipped.stopped going
  rw [Option.any_eq_true] at accepted
  obtain ⟨_, here, inline⟩ := accepted
  rw [here, Option.any_some, isInlineIn, inline, Bool.true_or] at refused
  cases refused

omit ready in
theorem compoundOperator_of_isAssignment {kind : TokenKind} (assigns : isAssignment kind = true) :
    ∃ operator, compoundOperator kind = some operator := by
  unfold isAssignment at assigns
  split at assigns
  · next spelled => cases spelled <;> first | exact ⟨_, rfl⟩ | cases assigns
  · cases assigns

omit ready in
theorem isInlineIn_of_isAssignment {kind : TokenKind} (assigns : isAssignment kind = true) :
    isInlineIn depth kind = false := by
  unfold isAssignment at assigns
  split at assigns
  · simp [isInlineIn, isInline]
  · cases assigns

omit ready in
/-- An operator that was seen ahead is there, unless the predicate cancels. -/
theorem assignmentOperator_parses (heeds : watched = true ∨ input.Calm)
    (assigns : input.Calm → isAssignment token.kind = true) :
    Mirrors alike (assignmentOperator watched token) (assignmentOperator false token) parser fun _ after => after = parser := by
  unfold assignmentOperator
  split
  · exact .pure rfl
  · next missing =>
    have cancels : ¬ input.Calm := by
      intro calm
      obtain ⟨_, compound⟩ := compoundOperator_of_isAssignment (assigns calm)
      rw [missing] at compound
      cases compound
    rw [if_pos (heeds.resolve_right cancels), if_neg Bool.false_ne_true]
    exact .stray ⟨rfl, cancels⟩ rfl trivial

/-- The operator that was seen ahead is taken. -/
theorem parseAssignmentIn_parses (heeds : watched = true ∨ input.Calm) (from_ : least ≤ parser.position)
    {operatorToken : PlacedToken source} (beyond : parser.position < found)
    (there : input.tokens[found]? = some operatorToken) (assigns : isAssignment operatorToken.kind = true)
    (between : ∀ index, parser.position < index → index < found → (input.tokens[index]?.map (·.kind)).any isInline = true) :
    Mirrors alike (parseAssignmentIn watched grammar) (parseAssignmentIn false grammar') parser fun _ after => parser.position < after.position := by
  refine parseNameReference_parses.bind ?_
  rintro target named later ⟨parsed, _, position⟩
  refine skipInline_parses.bind ?_
  intro _ skipped ahead gap
  have operatorAhead : isInlineIn named.continuationDepth operatorToken.kind = false :=
    isInlineIn_of_isAssignment assigns
  have upto : skipped.position ≤ found := gap.at_most (by omega) there operatorAhead
  refine takeExpected_bind (Nat.lt_of_le_of_lt upto (lt_length_of_token there)) ?_
  intro token taken ahead' took
  have assigned : input.Calm → isAssignment token.kind = true := by
    intro calm
    have here : skipped.position = found := by
      refine gap.stops_at (fun tripped => tripped.not_calm calm) (by omega) ahead.position there operatorAhead ?_
      intro index from_ upto
      exact between index (by omega) upto
    have found' := took.found
    rw [here, there, Option.some_inj] at found'
    rw [← found']
    exact assigns
  refine (assignmentOperator_parses heeds assigned).bind ?_
  rintro operator _ _ rfl
  refine skipLayout_bind ?_
  intro laid ahead''
  refine (parseExpression_parses ready (by grind)).bind ?_
  intro value valued onward parsed'
  have finish : ∀ (whole : Expression source.Region), whole.span.stop = value.span.stop →
      Parses alike (do
        let span ← span target.span.start whole.span.stop
        return Statement.mk (.assignment target whole) span) valued fun _ after => parser.position < after.position := by
    intro whole stops
    exact span_pure target.span.opens whole.span.closes (by grind) fun _ => by grind
  split
  · refine (binary_parses ?_).bind ?_
    · show target.span.start ≤ value.span.stop
      grind
    · rintro whole _ _ ⟨rfl, _, stops⟩
      exact finish whole stops
  · exact finish value rfl

theorem parseIndexedAssignment_parses (from_ : least ≤ parser.position) :
    ready.Moves parseIndexedAssignment parser := by
  refine parseNameReference_parses.bind ?_
  rintro target named later ⟨parsed, _⟩
  refine skipInline_bind ?_
  intro skipped ahead
  refine expectDelimiter_parses.bind ?_
  intro opened entered ahead' took
  refine continued_bind (fun result inner => Parsed input entered result.2.span inner) ?_ ?_
  · intro inner position
    refine skipLayout_bind ?_
    intro laid onward
    refine (parseExpression_parses ready (by grind)).bind ?_
    intro index indexed onward' _
    refine skipLayout_bind ?_
    intro laid' onward''
    refine expectDelimiter_parses.bind ?_
    intro close after onward3 closed
    exact .pure ⟨by grind, by grind, by grind⟩
  · rintro ⟨index, close⟩ inner closed onward parsed' position
    refine skipInline_bind ?_
    intro skipped' onward'
    refine expectOperator_parses.bind ?_
    intro operator assigned onward'' _
    refine skipLayout_bind ?_
    intro laid onward3
    refine (parseExpression_parses ready (by grind)).bind ?_
    intro value after onward4 parsed''
    refine span_bind target.span.opens value.span.closes (by grind) ?_
    intro whole _ _
    refine span_bind opened.span.opens close.span.closes (by grind) ?_
    intro brackets _ _
    exact .pure (by grind)

include from_ inside in
theorem parseExport_parses :
    ready.Moves (parseExport · topLevel) parser := by
  refine takeExpected_bind inside ?_
  intro start entered later took
  refine skipInline_bind ?_
  intro skipped ahead
  refine reads rfl rfl ?_
  split
  · split
    · exact stops invalidHere_parses
    refine parseModuleNameList_parses.bind ?_
    rintro ⟨names, close⟩ after ahead' parsed
    exact span_pure start.span.opens close.span.closes (by grind) fun _ => by grind
  refine parseIdentifier_parses.bind ?_
  rintro name named ahead' _
  refine skipInline_bind ?_
  intro skipped' ahead''
  refine expectOperator_parses.bind ?_
  intro _ assigned onward _
  refine skipLayout_bind ?_
  intro laid onward'
  refine (parseExpression_parses ready (by grind)).bind ?_
  intro value after onward'' parsed'
  exact span_pure start.span.opens value.span.closes (by grind) fun _ => by grind

omit ready in
theorem parseUnset_parses (inside : parser.position < input.tokens.length) :
    Parses alike parseUnset parser fun _ after => parser.position < after.position := by
  refine takeExpected_bind inside ?_
  intro start entered later took
  refine skipInline_bind ?_
  intro skipped ahead
  refine parseIdentifier_parses.bind ?_
  rintro name after ahead' ⟨parsed, _⟩
  exact span_pure start.span.opens name.span.closes (by grind) fun _ => by grind

/-! ## Callables -/

theorem parseBlock_parses (from_ : least ≤ parser.position) :
    ready.Keeps parseBlock parser fun block after => Parsed input parser block.span after := by
  refine expectDelimiter_parses.bind ?_
  intro opened entered ahead took
  refine (ready.statementList _ (by grind)).bind ?_
  intro statements listed ahead' _
  refine expectDelimiter_parses.bind ?_
  intro close after ahead'' closed
  refine spanned_bind parser opened.span.opens close.span.closes (by grind) ?_
  intro region spanned
  exact .pure spanned

include from_ inside in
theorem parseFunction_parses :
    ready.Moves (parseFunction · documentation) parser := by
  refine takeExpected_bind inside ?_
  intro start entered later took
  refine skipInline_bind ?_
  intro skipped ahead
  refine parseIdentifier_parses.bind ?_
  rintro name named ahead' _
  refine parseTypeParameters_parses.bind ?_
  intro typeParameters typed ahead'' _
  refine skipInline_bind ?_
  intro skipped' onward
  refine expectDelimiter_parses.bind ?_
  intro _ opened onward' _
  refine (parseParameters_parses ready (by grind)).bind ?_
  intro parameters listed onward'' _
  refine expectDelimiter_parses.bind ?_
  intro _ closed onward3 _
  refine skipInline_bind ?_
  intro skipped'' onward4
  refine (parseOptionalType_parses ready (by grind) fun _ => skipLayout_parses.anything).bind ?_
  intro returnType returned onward5 _
  refine skipLayout_bind ?_
  intro laid onward6
  refine (parseBlock_parses ready (by grind)).bind ?_
  intro body after onward7 parsed
  exact span_pure start.span.opens body.span.closes (by grind) fun _ => by grind

theorem parseEffectArgument_parses (from_ : least ≤ parser.position) :
    ready.Moves parseEffectArgument parser := by
  refine reads rfl rfl ?_
  split
  · refine parseQualifiedName_parses.bind ?_
    rintro name after _ ⟨parsed, _⟩
    exact .pure parsed.taken
  · split
    · refine Mirrors.bind (parseLiteral_takes ready from_).mirrors ?_
      intro literal after _ parsed
      exact .pure parsed.taken
    · exact invalidHere_parses
  · exact invalidHere_parses

theorem parseEffectRequest_parses (from_ : least ≤ parser.position) :
    ready.Moves parseEffectRequest parser := by
  refine parseIdentifier_parses.bind ?_
  rintro family named ahead ⟨parsed, _⟩
  refine expectOperator_parses.bind ?_
  intro _ dotted ahead' _
  refine parseIdentifier_parses.bind ?_
  rintro operation operated ahead'' ⟨parsed', _⟩
  refine span_bind family.span.opens operation.span.closes (by grind) ?_
  intro capability capabilityStarts capabilityStops
  refine skipInline_bind ?_
  intro skipped onward
  refine takeIf_bind ?_ ?_
  · have ordered := capability.ordered
    exact span_pure family.span.opens capability.closes (by omega) fun _ => by grind
  · intro parenthesis opened onward' took
    refine skipLayout_bind ?_
    intro laid onward''
    refine (separated_advances (fun _ => ⟨_, rfl, rfl, trivial⟩)
      fun _ _ => parseEffectArgument_parses ready (by grind)).bind ?_
    intro arguments filled onward3 _
    refine expectDelimiter_parses.bind ?_
    intro close closed onward4 took'
    refine skipInline_bind ?_
    intro after onward5
    exact span_pure family.span.opens close.span.closes (by grind) fun _ => by grind

theorem parseEffectBlock_parses (from_ : least ≤ parser.position) :
    ready.Keeps parseEffectBlock parser fun result after => Parsed input parser result.2 after := by
  refine expectDelimiter_parses.bind ?_
  intro left opened ahead took
  refine skipLayout_bind ?_
  intro laid ahead'
  refine iterate_bind (fun _ _ => True) (fun _ _ => True) trivial ?_ ?_
  · intro requests middle later _
    refine reads rfl rfl ?_
    split
    · exact Parses.pure trivial
    refine (parseEffectRequest_parses ready (by grind)).bind ?_
    intro request requested onward taken
    refine skipLayout_bind ?_
    intro laid' onward'
    refine reads rfl rfl ?_
    split
    · exact Parses.pure trivial
    refine expectOperator_parses.bind ?_
    intro _ comma onward'' _
    refine skipLayout_bind ?_
    intro after onward3
    exact .pure ⟨trivial, by grind⟩
  · intro requests middle later _
    refine expectDelimiter_parses.bind ?_
    intro right after onward closed
    refine spanned_bind parser left.span.opens right.span.closes (by grind) ?_
    intro region spanned
    exact .pure spanned

theorem parseActionBody_parses {opened : PlacedToken source} {before : Nat} (past : least < parser.position)
    (starts : before ≤ opened.span.start) (stops : opened.span.stop ≤ input.offset parser.position) :
    ready.Keeps (parseActionBody · opened) parser fun result after =>
      parser.position < after.position ∧ before ≤ result.2.2.span.start ∧
        result.2.2.span.stop ≤ input.offset after.position := by
  have ordered := opened.span.ordered
  refine skipLayout_bind ?_
  intro laid ahead
  refine expectContextualIdentifier_parses.bind ?_
  intro effectsKeyword named ahead' took
  refine skipLayout_bind ?_
  intro laid' ahead''
  refine (parseEffectBlock_parses ready (by grind)).bind ?_
  rintro ⟨effects, effectsBlockSpan⟩ listed onward parsed
  refine span_bind effectsKeyword.span.opens effectsBlockSpan.closes (by grind) ?_
  intro effectsSpan _ _
  refine (ready.statementList _ (by grind)).bind ?_
  intro statements stated onward' _
  refine expectDelimiter_parses.bind ?_
  intro close after onward'' closed
  refine span_bind opened.span.opens close.span.closes (by grind) ?_
  intro region opens closes
  refine .pure ⟨by grind, ?_, ?_⟩
  · show before ≤ region.start
    omega
  · show region.stop ≤ _
    grind

include from_ inside in
theorem parseAction_parses :
    ready.Moves (parseAction · topLevel documentation) parser := by
  unfold parseAction
  split
  · exact stops invalidHere_parses
  refine takeExpected_bind inside ?_
  intro start entered later took
  refine skipInline_bind ?_
  intro skipped ahead
  refine parseIdentifier_parses.bind ?_
  rintro name named ahead' _
  refine parseTypeParameters_parses.bind ?_
  intro typeParameters typed ahead'' _
  refine skipInline_bind ?_
  intro skipped' onward
  refine expectDelimiter_parses.bind ?_
  intro _ parenthesised onward' _
  refine (parseParameters_parses ready (by grind)).bind ?_
  intro parameters listed onward'' _
  refine expectDelimiter_parses.bind ?_
  intro _ closed onward3 _
  refine skipInline_bind ?_
  intro skipped'' onward4
  refine expectOperator_parses.bind ?_
  intro _ arrowed onward5 _
  refine skipLayout_bind ?_
  intro laid onward6
  refine (parseTypeReference_parses ready (by grind)).bind ?_
  intro returnType returned onward7 _
  refine skipLayout_bind ?_
  intro laid' onward8
  refine expectDelimiter_parses.bind ?_
  intro opened bodied onward9 took'
  refine (parseActionBody_parses ready (by grind) took'.starts took'.stops).bind ?_
  rintro ⟨effects, effectsSpan, body⟩ after final ⟨taken, starts, _⟩
  refine span_bind start.span.opens body.span.closes ?_ ?_
  · have ordered := body.span.ordered
    grind
  intro region _ _
  exact .pure (by grind)

omit ready in
theorem parseTask_parses (inside : parser.position < input.tokens.length) :
    Parses alike (parseTask topLevel documentation) parser fun _ after => parser.position < after.position := by
  unfold parseTask
  split
  · exact stops invalidHere_parses
  refine takeExpected_bind inside ?_
  intro start entered later took
  refine skipInline_bind ?_
  intro skipped ahead
  refine parseIdentifier_parses.bind ?_
  rintro name named ahead' _
  refine skipInline_bind ?_
  intro skipped' ahead''
  refine expectOperator_parses.bind ?_
  intro _ assigned onward _
  refine skipLayout_bind ?_
  intro laid onward'
  refine parseQualifiedName_parses.bind ?_
  rintro action after onward'' ⟨parsed, _⟩
  exact span_pure start.span.opens action.span.closes (by grind) fun _ => by grind

/-! ## Control flow -/

theorem parseControlCondition_parses (from_ : least ≤ parser.position) :
    ready.Keeps parseControlCondition parser fun chain after => Parsed input parser chain.span after := by
  refine assume fun valid => ?_
  let entered : Parser source := { parser with
    controlConditionDepth := parser.controlConditionDepth + 1
    blockHeaderDepth := some parser.continuationDepth }
  have enteredValid : Entered input entered := ⟨valid.sound, valid.within, valid.brackets⟩
  have inner : ready.Keeps parseConditionalChain entered fun chain after =>
      Parsed input entered chain.span after := parseConditionalChain_parses ready from_
  have deeper : ∀ inside, Later input entered inside → inside.controlConditionDepth = parser.controlConditionDepth + 1 :=
    fun inside stepped => stepped.condition
  refine reads rfl rfl ?_
  refine .steps entered rfl rfl (Nat.le_refl _) (fun _ => enteredValid) ?_
  refine countDown_parses inner (fun inside stepped => ?_) (fun _ => rfl)
    (fun inside valid => ⟨valid.sound, valid.within, valid.brackets⟩) (fun inside stepped => ?_)
    fun chain inside _ parsed => ⟨parsed.taken, parsed.starts, parsed.stops⟩
  · rw [deeper inside stepped]
    exact Nat.succ_ne_zero _
  · exact ⟨stepped.position, stepped.offset, stepped.within, stepped.continuation,
      by show inside.controlConditionDepth - 1 = _; rw [deeper inside stepped]; rfl, stepped.chain, stepped.brackets, stepped.polls⟩

theorem parseBlockHeaderExpression_parses (from_ : least ≤ parser.position) :
    ready.Keeps parseBlockHeaderExpression parser fun expression after =>
      Parsed input parser expression.span after := by
  refine reads rfl rfl ?_
  have entering : Parses alike
      (modify fun parser => { parser with blockHeaderDepth := some parser.continuationDepth }) parser
      fun _ after => after.position = parser.position :=
    .of_eq rfl rfl (.of_unmoved rfl rfl rfl rfl rfl (Nat.le_refl _)) rfl
  refine entering.bind ?_
  intro _ entered _ position
  have inner : ready.Keeps parseExpression entered fun expression after =>
      Parsed input entered expression.span after := parseExpression_parses ready (by grind)
  refine .observed_bind inner (fun outcome inside stepped seen kept => ?_)
    (fun error inside stepped _ => ⟨_, rfl, Nat.le_refl _, ?_⟩) fun error inside doomed => ⟨error, _, rfl, doomed⟩
  · have leaving : Parses alike (modify fun state => { state with blockHeaderDepth := parser.blockHeaderDepth }) inside
        fun _ after => after.position = inside.position :=
      .of_eq rfl rfl (.of_unmoved rfl rfl rfl rfl rfl (Nat.le_refl _)) rfl
    refine .of_follows stepped (leaving.bind ?_)
    intro _ left _ position'
    refine .replay ?_ kept
    cases outcome with
    | ok expression =>
      have parsed : Parsed input entered expression.span inside := seen
      have spanned : Parsed input parser expression.span left := ⟨by grind, by grind, by grind⟩
      exact spanned
    | error => exact seen
  · exact .trans stepped (.of_unmoved rfl rfl rfl rfl rfl (Nat.le_refl _))

include from_ inside in
theorem parseTry_parses :
    ready.Moves parseTry parser := by
  refine takeExpected_bind inside ?_
  intro start entered later took
  refine skipInline_bind ?_
  intro skipped ahead
  refine (parseBlock_parses ready (by grind)).bind ?_
  intro tryBlock tried ahead' _
  refine skipInline_bind ?_
  intro skipped' ahead''
  refine expectKeyword_parses.bind ?_
  intro _ caught onward _
  refine skipInline_bind ?_
  intro skipped'' onward'
  refine parseIdentifier_parses.bind ?_
  rintro binding bound onward'' _
  refine skipInline_bind ?_
  intro skipped3 onward3
  refine (parseBlock_parses ready (by grind)).bind ?_
  intro catchBlock after onward4 parsed
  exact span_pure start.span.opens catchBlock.span.closes (by grind) fun _ => by grind

include from_ inside in
theorem parseThrow_parses :
    ready.Moves parseThrow parser := by
  refine takeExpected_bind inside ?_
  intro start entered later took
  refine skipLayout_bind ?_
  intro laid ahead
  refine (parseExpression_parses ready (by grind)).bind ?_
  intro expression after ahead' parsed
  exact span_pure start.span.opens expression.span.closes (by grind) fun _ => by grind

theorem parseElseBranch_parses {start : Nat} (past : least < parser.position)
    (behind : start ≤ input.offset parser.position) :
    ready.Keeps parseElseBranch parser fun result after => Reached input start result.2 after := by
  refine skipInline_bind ?_
  intro skipped ahead
  refine reads rfl rfl ?_
  split
  · next keyword =>
    refine (ready.ifNode (by grind) (lt_length_of_beq keyword)).bind ?_
    rintro ⟨node, span⟩ after _ parsed
    exact .pure (parsed.reached (by grind))
  · refine (parseBlock_parses ready (by grind)).bind ?_
    intro block after _ parsed
    exact .pure (parsed.reached (by grind))

include from_ inside in
theorem parseIfNode_parses :
    ready.Keeps parseIfNode parser fun node after => Parsed input parser node.2 after := by
  refine takeExpected_bind inside ?_
  intro start entered later took
  refine skipInline_bind ?_
  intro skipped ahead
  refine (parseControlCondition_parses ready (by grind)).bind ?_
  intro condition conditioned ahead' _
  refine skipInline_bind ?_
  intro skipped' ahead''
  refine (parseBlock_parses ready (by grind)).bind ?_
  intro thenBlock blocked onward parsed
  refine skipInline_bind ?_
  intro skipped'' onward'
  have finish : ∀ (branch : Option (ElseBranch source.Region)) (stop : Nat) (after : Parser source),
      Later input skipped'' after → Reached input start.span.start stop after →
      Mirrors alike (do
        let span ← span start.span.start stop
        return (IfStatement.mk condition thenBlock branch, span)) (do
        let span ← span start.span.start stop
        return (.mk condition thenBlock branch, span)) after fun node after =>
          Parsed input parser node.2 after := by
    intro branch stop after final reached
    refine span_bind start.span.opens reached.closes reached.ordered ?_
    intro region opens closes
    exact .pure ⟨by grind, by grind, by grind⟩
  refine takeIf_bind ?_ ?_
  · exact finish none thenBlock.span.stop skipped'' (.refl _) ⟨thenBlock.span.closes, by grind, by grind⟩
  · intro keyword branched onward'' took'
    have behind : start.span.start ≤ input.offset branched.position := by grind
    refine (parseElseBranch_parses ready (by grind) behind).bind ?_
    rintro ⟨branch, stop⟩ after onward3 reached
    exact finish (some branch) stop after (.trans onward'' onward3) reached

include from_ inside in
theorem parseWhile_parses :
    ready.Moves parseWhile parser := by
  refine takeExpected_bind inside ?_
  intro start entered later took
  refine skipInline_bind ?_
  intro skipped ahead
  refine (parseControlCondition_parses ready (by grind)).bind ?_
  intro condition conditioned ahead' _
  refine skipInline_bind ?_
  intro skipped' ahead''
  refine (parseBlock_parses ready (by grind)).bind ?_
  intro body after onward parsed
  exact span_pure start.span.opens body.span.closes (by grind) fun _ => by grind

include from_ inside in
theorem parseFor_parses :
    ready.Moves parseFor parser := by
  refine takeExpected_bind inside ?_
  intro start entered later took
  refine skipInline_bind ?_
  intro skipped ahead
  refine parseIdentifier_parses.bind ?_
  rintro binding bound ahead' _
  refine skipInline_bind ?_
  intro skipped' ahead''
  refine expectKeyword_parses.bind ?_
  intro _ inside' onward _
  refine skipLayout_bind ?_
  intro laid onward'
  refine (parseBlockHeaderExpression_parses ready (by grind)).bind ?_
  intro iterable iterated onward'' _
  refine skipInline_bind ?_
  intro skipped'' onward3
  refine (parseBlock_parses ready (by grind)).bind ?_
  intro body after onward4 parsed
  exact span_pure start.span.opens body.span.closes (by grind) fun _ => by grind

theorem parseGuard_parses (from_ : least ≤ parser.position) :
    ready.Keeps parseGuard parser fun _ _ => True := by
  refine takeIf_bind (.pure trivial) ?_
  intro keyword taken later took
  refine skipInline_bind ?_
  intro skipped ahead
  refine (parseExpression_parses ready (by grind)).bind ?_
  intro _ _ _ _
  exact .pure trivial

/-- An arm whose first token starts a pattern takes it. -/
theorem parseMatchArm_takes (from_ : least ≤ parser.position) :
    Takes alike (Faces input startsPattern parser) (parseMatchArm grammar) (parseMatchArm grammar') parser
      fun _ after => parser.position < after.position := by
  refine Takes.currentSpan_bind ?_
  intro token found
  have here := ParserInput.offset_of_token found
  refine Takes.bind (parsePattern_takes ready from_) ?_
  intro pattern matched later parsed
  refine skipInline_bind ?_
  intro skipped ahead
  refine (parseGuard_parses ready (by grind)).bind ?_
  intro guard guarded ahead' _
  refine skipInline_bind ?_
  intro skipped' ahead''
  refine expectOperator_parses.bind ?_
  intro _ arrowed onward _
  refine skipLayout_bind ?_
  intro laid onward'
  refine (parseBlock_parses ready (by grind)).bind ?_
  intro body after onward'' parsed'
  exact span_pure token.span.opens body.span.closes (by grind) fun _ => by grind

omit ready in
/-- Past the tokens an arm is missing, not wrong. -/
theorem parseMatchArm_end (ended : input.tokens.length ≤ parser.position) :
    ∃ incomplete, ∀ (grammar : Grammar source) (other : ParserInput source), other.tokens = input.tokens →
      parseMatchArm grammar other parser = .error (.incomplete incomplete) parser := by
  have whole : IsBoundary source.text source.len := ⟨source.text, [], by simp, rfl⟩
  obtain ⟨region, made, _, _⟩ := SourceFile.region_ok (Nat.le_refl _) whole whole
  refine ⟨⟨.expression, region⟩, fun grammar other same => ?_⟩
  have missing : current other parser = .ok none parser := by
    unfold current
    rw [same, List.getElem?_eq_none ended]
  have spanned : hereSpan other parser = .ok region parser := by
    refine (ok_bind missing).trans ?_
    unfold span
    rw [made]
    rfl
  exact error_bind ((ok_bind missing).trans (ok_bind spanned))

omit ready in
/-- Recovery moves past a state that stood before a token that does not close. -/
theorem synchronize_past (reached : Later input start parser) (before : Before input closing start.position) :
    Parses alike (synchronize closing) parser fun _ after => Passed input start.position after := by
  refine .mono synchronize_parses ?_
  intro _ after later taken
  have ordered := reached.position
  have ordered' := later.position
  rcases Nat.eq_or_lt_of_le ordered with same | moved
  · rw [← same] at taken
    exact taken before
  · exact .inl (Nat.lt_of_lt_of_le moved ordered')

omit ready in
theorem before_of_atDelimiter {side : Delimiter} (found : input.tokens[parser.position]? = some token)
    (other : ¬ (input.tokens[parser.position]?.map (·.kind) == some (.delimiter side)) = true) :
    Before input (some side) parser.position := by
  refine ⟨token, found, ?_⟩
  rw [found] at other
  simpa using other

/-- What is asked of a pass that goes on. -/
def OnAgain {α β : Type} (holds : Prop) : Turn α β → Prop
  | .again _ => holds
  | .done _ => True

section Arms

variable {arms : List (MatchArm source.Region)}

omit ready in
theorem skipRefusedArm_parses {diagnostic : Diagnostic source.Region} {start : Parser source}
    (reached : Later input start parser) (before : Before input (some .rightBrace) start.position) :
    Parses alike (skipRefusedArm arms diagnostic) parser fun turn after => OnAgain (Passed input start.position after) turn := by
  refine pushDiagnostic_parses.bind ?_
  intro _ pushed ahead _
  refine (synchronize_past (.trans reached ahead) before).bind ?_
  intro _ synchronized _ passed
  refine assume fun valid => ?_
  refine skipSeparators_parses.bind ?_
  intro _ after onward _
  exact .pure (passed.later valid.sound onward)

omit ready in
theorem closeArm_parses : Parses alike (closeArm arms) parser fun _ _ => True := by
  refine skipInline_bind ?_
  intro skipped _
  refine reads rfl rfl ?_
  split
  · exact Parses.pure trivial
  refine reads rfl rfl ?_
  split
  · refine reportHere_parses.bind ?_
    intro _ reported _ _
    refine synchronize_parses.bind ?_
    intro _ synchronized _ _
    refine skipSeparators_parses.bind ?_
    intro _ after _ _
    exact .pure trivial
  · refine skipSeparators_parses.bind ?_
    intro _ after _ _
    exact .pure trivial

/-- Every turn that goes on takes a token, with or without an arm, unless recovery is
cancelled. -/
theorem matchArmTurn_parses (from_ : least ≤ parser.position) :
    ready.Keeps (matchArmTurn · arms) parser fun turn after =>
      OnAgain (Passed input parser.position after) turn := by
  refine reads rfl rfl ?_
  split
  · exact Parses.pure trivial
  next other =>
  rcases Nat.lt_or_ge parser.position input.tokens.length with inside | ended
  · have before := before_of_atDelimiter (List.getElem?_eq_getElem inside) other
    refine .observed_bind (parseMatchArm_takes ready from_).mirrors (fun outcome tried ahead seen kept => ?_)
      (fun error tried ahead astray => ?_) fun error tried doomed => ?_
    · refine .of_follows ahead ?_
      split
      · exact skipRefusedArm_parses ahead before
      · exact Parses.throw seen (kept _ rfl)
      · have taken : parser.position < tried.position := seen
        refine .mono closeArm_parses ?_
        rintro (_ | _) after onward _
        · exact .inl (Nat.lt_of_lt_of_le taken onward.position)
        · exact trivial
    · rw [astray.eq]
      exact ⟨tried, rfl, Nat.le_refl _, ahead⟩
    · rcases doomed.cases with rfl | rfl
      · exact ⟨_, _, rfl, doomed⟩
      · exact ⟨_, _, rfl, doomed⟩
  · obtain ⟨_, stopped⟩ := parseMatchArm_end ended
    exact reads (observed_error (stopped grammar input rfl)) (observed_error (stopped grammar' alike.follow rfl))
      (Parses.throw trivial id)

/-! ### Arms that are refused -/

section Refused

variable {input : ParserInput source}

omit ready

/-- The kinds with which an arm is refused where it is entered. -/
def startsNoArm (kind : TokenKind) : Bool := kind != .delimiter .rightBrace && !startsPattern kind

theorem invalidHere_faces {accepts : TokenKind → Bool} (α : Type) (message : String) (faces : Faces input accepts parser) :
    ∃ diagnostic, (invalidHere message : ParseM source α) input parser = .error (.invalid diagnostic) parser := by
  obtain ⟨token, found, _⟩ := faces
  have spanned : hereSpan input parser = .ok token.span parser := by
    have looked : current input parser = .ok (some token) parser := congrArg (EStateM.Result.ok · parser) found
    exact ok_bind looked
  refine ⟨diagnosticAt token.span message, ?_⟩
  unfold invalidHere invalidErrorHere
  rw [bind_assoc, ok_bind spanned]
  rfl

theorem parsePattern_refuses (grammar : Grammar source) (faces : Faces input startsNoArm parser) :
    ∃ diagnostic, parsePattern grammar input parser = .error (.invalid diagnostic) parser := by
  obtain ⟨diagnostic, refused⟩ := invalidHere_faces (Pattern source.Region) "expected a match pattern" faces
  obtain ⟨token, found, starts⟩ := faces
  have looked : currentKind input parser = .ok (some token.kind) parser := by
    show EStateM.Result.ok (input.tokens[parser.position]?.map (·.kind)) parser = _
    rw [found]
    rfl
  have other : startsPattern token.kind = false := by
    simp only [startsNoArm, Bool.and_eq_true, Bool.not_eq_true'] at starts
    exact starts.2
  refine ⟨diagnostic, (ok_bind looked).trans (Eq.trans ?_ refused)⟩
  refine congrFun (congrFun ?_ input) parser
  revert other
  generalize token.kind = kind
  intro other
  split
  · next same => cases same; cases other
  · next same => cases same; cases other
  · next same =>
    cases same
    have no : startsLiteral kind = false := by
      unfold startsPattern at other
      split at other
      · cases other
      · cases other
      · exact other
    rw [if_neg (by rw [no]; exact Bool.false_ne_true)]
  · next same => cases same

theorem parseMatchArm_refuses (grammar : Grammar source) (faces : Faces input startsNoArm parser) :
    ∃ diagnostic, parseMatchArm grammar input parser = .error (.invalid diagnostic) parser := by
  obtain ⟨diagnostic, refused⟩ := parsePattern_refuses grammar faces
  obtain ⟨token, found, _⟩ := faces
  have spanned : currentSpan input parser = .ok token.span parser := by
    have looked : current input parser = .ok (some token) parser := congrArg (EStateM.Result.ok · parser) found
    exact ok_bind looked
  exact ⟨diagnostic, (ok_bind spanned).trans (error_bind refused)⟩

/-- Before the closing brace an arm is tried. -/
theorem matchArmTurn_tries (other : input.tokens[parser.position]?.map (·.kind) ≠ some (.delimiter .rightBrace)) :
    matchArmTurn grammar arms input parser = (observed (parseMatchArm grammar) >>= fun outcome => match outcome with
      | .error (.invalid diagnostic) => skipRefusedArm arms diagnostic
      | .error error => throw error
      | .ok arm => closeArm (arms ++ [arm])) input parser := by
  have open_ : atDelimiter (some .rightBrace) input parser = .ok false parser := by
    show EStateM.Result.ok (input.tokens[parser.position]?.map (·.kind) == some (.delimiter .rightBrace)) parser = _
    rw [beq_eq_false_iff_ne.mpr other]
  refine (ok_bind open_).trans ?_
  rfl

theorem Faces.other (faces : Faces input startsNoArm parser) :
    input.tokens[parser.position]?.map (·.kind) ≠ some (.delimiter .rightBrace) := by
  obtain ⟨_, found, starts⟩ := faces
  rw [found]
  intro same
  simp only [Option.map_some, Option.some.injEq] at same
  rw [same] at starts
  cases starts

theorem matchArmTurn_refuses (grammar : Grammar source) (arms : List (MatchArm source.Region))
    (faces : Faces input startsNoArm parser) :
    ∃ diagnostic, matchArmTurn grammar arms input parser = skipRefusedArm arms diagnostic input parser := by
  obtain ⟨diagnostic, refused⟩ := parseMatchArm_refuses grammar faces
  refine ⟨diagnostic, (matchArmTurn_tries faces.other).trans ?_⟩
  exact ok_bind (observed_error refused)

/-- Where an arm is refused and everything is cancelled from there on, the arms never end. -/
structure Stuck (input : ParserInput source) (parser : Parser source) : Prop where
  faces : Faces input startsNoArm parser
  cancelled : ∀ polls, parser.polls ≤ polls → input.isCancelled polls = true

/-- A state at the same place, not before it in polls. -/
structure Stays (parser after : Parser source) : Prop where
  position : after.position = parser.position
  polls : parser.polls ≤ after.polls

variable {after : Parser source}

theorem Stuck.stays (stuck : Stuck input parser) (stays : Stays parser after) :
    Stuck input after where
  faces := by
    unfold Faces
    rw [stays.position]
    exact stuck.faces
  cancelled := fun polls later => stuck.cancelled polls (Nat.le_trans stays.polls later)

theorem iterate_done {α β : Type} {body : α → ParseM source (Turn α β)} {first : α} {result : β}
    (pass : body first input parser = .ok (.done result) after) : iterate body first input parser = .ok result after :=
  repeatFrom_done pass

theorem isCancelled_polls {answer : Bool} (polled : input.isCancelled parser.polls = answer) :
    isCancelled input parser = .ok answer { parser with polls := parser.polls + 1 } := by
  rw [← polled]
  rfl

theorem Stuck.synchronize (stuck : Stuck input parser) :
    ∃ after, Parser.synchronize (some .rightBrace) input parser = .ok () after ∧ Stays parser after := by
  obtain ⟨token, found, _⟩ := stuck.faces
  refine ⟨{ parser with polls := parser.polls + 1 }, iterate_done ?_, rfl, Nat.le_succ _⟩
  have here : current input parser = .ok (some token) parser := by
    unfold current
    rw [found]
  refine (ok_bind here).trans ?_
  exact ok_bind (isCancelled_polls (stuck.cancelled _ (Nat.le_refl _)))

theorem Stuck.skipSeparators (stuck : Stuck input parser) :
    ∃ after, Parser.skipSeparators input parser = .ok () after ∧ Stays parser after := by
  obtain ⟨token, found, _⟩ := stuck.faces
  have looked : currentKind input parser = .ok (some token.kind) parser := by
    show EStateM.Result.ok (input.tokens[parser.position]?.map (·.kind)) parser = _
    rw [found]
    rfl
  by_cases separates : isSeparator token.kind = true
  · refine ⟨{ parser with polls := parser.polls + 1 }, iterate_done ?_, rfl, Nat.le_succ _⟩
    refine (ok_bind looked).trans ?_
    dsimp [Option.any]
    rw [if_pos separates]
    exact ok_bind (isCancelled_polls (stuck.cancelled _ (Nat.le_refl _)))
  · refine ⟨parser, iterate_done ?_, rfl, Nat.le_refl _⟩
    refine (ok_bind looked).trans ?_
    dsimp [Option.any]
    rw [if_neg separates]
    rfl

theorem matchArmTurn_stuck (stuck : Stuck input parser) :
    ∃ next after, matchArmTurn grammar arms input parser = .ok (.again next) after ∧ Stuck input after := by
  obtain ⟨diagnostic, refused⟩ := matchArmTurn_refuses grammar arms stuck.faces
  have pushed : Stuck input { parser with diagnostics := parser.diagnostics ++ [diagnostic] } :=
    stuck.stays ⟨rfl, Nat.le_refl _⟩
  obtain ⟨_, recovered, first⟩ := pushed.synchronize
  obtain ⟨after, skipped, second⟩ := (pushed.stays first).skipSeparators
  refine ⟨arms, after, refused.trans ?_, (pushed.stays first).stays second⟩
  exact (ok_bind recovered).trans (ok_bind skipped)

end Refused

/-! ### Arms that are gone over again -/

variable {next : List (MatchArm source.Region)} {after : Parser source}

/-- A turn at a token that starts a pattern takes it. -/
theorem matchArmTurn_moves (valid : Entered input parser) (from_ : least ≤ parser.position)
    (faces : Faces input startsPattern parser) (turned : matchArmTurn grammar arms input parser = .ok (.again next) after) : parser.position < after.position := by
  have takes := parseMatchArm_takes ready from_
  have left := takes.leaves faces valid
  have outcome := takes.mirrors.runs valid
  obtain ⟨token, found, starts⟩ := faces
  have open_ : token.kind ≠ .delimiter .rightBrace := by
    intro same
    rw [same] at starts
    cases starts
  have other : input.tokens[parser.position]?.map (·.kind) ≠ some (.delimiter .rightBrace) := by
    rw [found]
    exact fun same => open_ (Option.some_inj.mp same)
  have before : Before input (some .rightBrace) parser.position :=
    ⟨token, found, by simpa using open_⟩
  rw [matchArmTurn_tries other] at turned
  cases result : parseMatchArm grammar input parser with
  | ok arm middle =>
    rw [result] at left outcome
    have later : Later input parser middle := outcome.1
    have closed : Parses alike (closeArm (arms ++ [arm])) middle fun _ _ => True := closeArm_parses
    have moved := closed.leaves (later.keeps valid) left
    rw [ok_bind (observed_ok result)] at turned
    rw [show closeArm (arms ++ [arm]) input middle = _ from turned] at moved
    exact moved
  | error error middle =>
    rw [result] at left outcome
    have later : Later input parser middle := outcome.1
    rw [ok_bind (observed_error result)] at turned
    cases error with
    | invalid diagnostic =>
      have skipped : Parses alike (skipRefusedArm arms diagnostic) middle _ := skipRefusedArm_parses later before
      have moved := skipped.leaves (later.keeps valid) left
      rw [show skipRefusedArm arms diagnostic input middle = _ from turned] at moved
      exact moved
    | incomplete | invalidMany | cancelled | panicked | exhausted => cases turned

/-- A turn that goes on and took nothing refused its arm. -/
theorem matchArmTurn_again (valid : Entered input parser) (from_ : least ≤ parser.position)
    (turned : matchArmTurn grammar arms input parser = .ok (.again next) after) (same : after.position = parser.position) : Faces input startsNoArm parser := by
  cases found : input.tokens[parser.position]? with
  | none =>
    obtain ⟨_, missing⟩ := parseMatchArm_end (List.getElem?_eq_none_iff.mp found)
    have other : input.tokens[parser.position]?.map (·.kind) ≠ some (.delimiter .rightBrace) := by
      rw [found]
      exact nofun
    rw [matchArmTurn_tries other, ok_bind (observed_error (missing grammar input rfl))] at turned
    cases turned
  | some token =>
    refine ⟨token, found, ?_⟩
    by_cases closes : token.kind = .delimiter .rightBrace
    · have here : atDelimiter (some .rightBrace) input parser = .ok true parser := by
        show EStateM.Result.ok (input.tokens[parser.position]?.map (·.kind) == some (.delimiter .rightBrace)) parser = _
        rw [found, Option.map_some, closes, beq_self_eq_true]
      have ended : matchArmTurn grammar arms input parser = .ok (.done arms) parser := ok_bind here
      rw [ended] at turned
      cases turned
    · by_cases starts : startsPattern token.kind = true
      · exact absurd same (Nat.ne_of_gt (matchArmTurn_moves ready valid from_ ⟨token, found, starts⟩ turned))
      · simp [startsNoArm, closes, starts]

omit ready in
/-- A heeded turn that goes on takes a token. -/
theorem heeded_runs {α β : Type} {watched : Bool} (heeds : watched = true ∨ input.Calm)
    {turn : ParseM source (Turn α β)}
    (runs : Runs (order input) turn input parser fun pass after => OnAgain (Passed input parser.position after) pass) :
    Runs (order input) (heeded watched turn) input parser fun pass after =>
      OnAgain (parser.position < after.position) pass := by
  unfold heeded
  split
  · refine .reads rfl ?_
    refine .bind runs ?_
    rintro (next | result) after later passed
    · have ordered := later.position
      refine .reads rfl ?_
      split
      · next same =>
        have tripped : Tripped input after := passed.resolve_left (by omega)
        exact .stops (.throw ⟨rfl, tripped.not_calm⟩)
      · next other =>
        have taken : parser.position < after.position := by omega
        exact .pure taken
    · exact .pure trivial
  · next unwatched =>
    refine .mono runs ?_
    rintro (next | result) after _ passed
    · exact passed.taken (heeds.resolve_left unwatched)
    · exact trivial

/-- A watched turn that took nothing stumbles; where it is not watched it is stuck. -/
theorem heeded_shadows {watched : Bool} (valid : Entered input parser) (from_ : least ≤ parser.position) :
    ShadowsFrom alike.comparison (heeded watched (matchArmTurn grammar arms)) (heeded false (matchArmTurn grammar' arms)) parser ∨
      StuckFrom alike.comparison (Stuck alike.follow) (heeded watched (matchArmTurn grammar arms))
        (heeded false (matchArmTurn grammar' arms)) parser := by
  have turns : Mirrors alike (matchArmTurn grammar arms) (matchArmTurn grammar' arms) parser _ := matchArmTurn_parses ready from_
  have outcome := turns.runs valid
  have step := turns.shadows valid
  cases watched with
  | false => exact .inl step
  | true =>
  unfold ShadowsFrom at step ⊢
  cases result : matchArmTurn grammar arms alike.comparison.lead parser with
  | error error after =>
    rw [result] at step
    have led : heeded true (matchArmTurn grammar arms) alike.comparison.lead parser = .error error after := by
      show (matchArmTurn grammar arms >>= _) alike.comparison.lead parser = _
      exact error_bind result
    rw [led]
    exact .inl step
  | ok pass after =>
    rw [result] at step
    rw [show matchArmTurn grammar arms input parser = _ from result] at outcome
    cases pass with
    | done value =>
      have led : heeded true (matchArmTurn grammar arms) alike.comparison.lead parser = .ok (.done value) after := by
        exact ok_bind result
      rw [led]
      exact .inl step
    | again next =>
      have passed : Passed input parser.position after := outcome.2
      by_cases same : after.position = parser.position
      · have led : heeded true (matchArmTurn grammar arms) alike.comparison.lead parser = .error (.invalidMany []) after := by
          refine (ok_bind result).trans ?_
          show (if after.position = parser.position then _ else _ : ParseM source _) alike.comparison.lead after = _
          rw [if_pos same]
          rfl
        obtain ⟨token, found, starts⟩ := matchArmTurn_again ready valid from_ result same
        have tripped : Tripped input after := passed.resolve_left (by omega)
        refine .inr ⟨_, after, led, step.1, rfl, fun going => ⟨next, after, step.2 going, ⟨token, ?_, starts⟩, ?_⟩⟩
        · rw [same]
          exact found
        · exact fun polls later => alike.cancels going tripped later
      · have led : heeded true (matchArmTurn grammar arms) alike.comparison.lead parser = .ok (.again next) after := by
          refine (ok_bind result).trans ?_
          show (if after.position = parser.position then _ else _ : ParseM source _) alike.comparison.lead after = _
          rw [if_neg same]
          rfl
        rw [led]
        exact .inl step

end Arms

theorem parseMatchArmsIn_parses (heeds : watched = true ∨ input.Calm) (from_ : least ≤ parser.position) :
    Mirrors alike (parseMatchArmsIn watched grammar) (parseMatchArmsIn false grammar') parser fun _ _ => True := by
  refine iterate_stuck (fun _ _ stuck => matchArmTurn_stuck stuck) (fun state => input.tokens.length - state.position)
    (fun _ _ => True) (by omega) trivial ?_
  intro arms middle later _
  have enough : least ≤ middle.position := Nat.le_trans from_ later.position
  refine ⟨.assume fun valid => ?_, fun valid => heeded_shadows ready valid enough⟩
  refine .mono (heeded_runs heeds (matchArmTurn_parses ready enough).runs) ?_
  rintro (next | result) after stepped taken
  · have within := Later.within stepped valid.within
    have taken : middle.position < after.position := taken
    exact ⟨trivial, by omega⟩
  · exact trivial

theorem parseMatchIn_parses (heeds : watched = true ∨ input.Calm) (from_ : least ≤ parser.position)
    (inside : parser.position < input.tokens.length) :
    Mirrors alike (parseMatchIn watched grammar) (parseMatchIn false grammar') parser fun _ after => parser.position < after.position := by
  refine takeExpected_bind inside ?_
  intro start entered later took
  refine skipInline_bind ?_
  intro skipped ahead
  refine (parseBlockHeaderExpression_parses ready (by grind)).bind ?_
  intro value valued ahead' _
  refine skipInline_bind ?_
  intro skipped' ahead''
  refine expectDelimiter_parses.bind ?_
  intro _ opened onward _
  refine skipSeparators_parses.bind ?_
  intro _ separated onward' _
  refine (parseMatchArmsIn_parses ready heeds (by grind)).bind ?_
  intro arms listed onward'' _
  refine expectDelimiter_parses.bind ?_
  intro close after onward3 closed
  exact span_pure start.span.opens close.span.closes (by grind) fun _ => by grind

omit ready in
theorem parseControl_parses {transfer : ControlTransfer source.Region} (inside : parser.position < input.tokens.length) :
    Parses alike (parseControl transfer) parser fun _ after => parser.position < after.position := by
  refine takeExpected_bind inside ?_
  intro token after _ took
  exact .pure took.taken

include from_ inside in
theorem parseReturn_parses :
    ready.Moves parseReturn parser := by
  refine takeExpected_bind inside ?_
  intro start entered later took
  refine skipInline_bind ?_
  intro skipped ahead
  refine answers atExpressionEnd_answers ?_
  intro _ _
  split
  · exact span_pure start.span.opens start.span.closes start.span.ordered fun _ => by grind
  · refine (parseExpression_parses ready (by grind)).bind ?_
    intro value after ahead' parsed
    exact span_pure start.span.opens value.span.closes (by grind) fun _ => by grind

theorem parseJobStatement_parses (from_ : least ≤ parser.position) :
    ready.Moves parseJobStatement parser := by
  refine (parseConditionalChain_parses ready from_).bind ?_
  intro chain chained later parsed
  refine skipInline_bind ?_
  intro skipped ahead
  refine takeIf_bind ?_ ?_
  · exact span_pure chain.span.opens chain.span.closes chain.span.ordered fun _ => by grind
  · intro marker after ahead' took
    refine span_bind chain.span.opens marker.span.closes ?_ ?_
    · grind
    intro region _ _
    exact .pure (by grind)

/-! ## Statements -/

omit ready in
/-- The look at what follows `effects` comes back to where it started. -/
theorem atEffectsBlock_parses : Parses alike atEffectsBlock parser fun _ after =>
    after.position = parser.position := by
  refine reads rfl rfl ?_
  split
  · exact Parses.pure rfl
  next contextual =>
  have here : parser.position < input.tokens.length := by
    rw [Bool.not_eq_true', Bool.not_eq_false, Option.any_eq_true] at contextual
    obtain ⟨token, found, _⟩ := contextual
    exact lt_length_of_token found
  refine reads rfl rfl ?_
  refine .bind (.refl parser) (advance_inside_parses here) ?_
  rintro _ taken later ⟨_, took⟩
  refine .bind later skipLayout_parses ?_
  intro _ skipped ahead layout
  refine .steps skipped rfl rfl (Nat.le_refl _) id ?_
  exact restore_ends (.trans later ahead) (layout.continuation.trans took.continuation) rfl

theorem parseStatementIn_parses (heeds : watched = true ∨ input.Calm) (from_ : least ≤ parser.position) :
    Mirrors alike (parseStatementIn watched grammar topLevel documentation) (parseStatementIn false grammar' topLevel documentation) parser fun _ after =>
      parser.position < after.position := by
  refine checkCancelled_parses.bind ?_
  intro _ polled ahead unmoved
  refine skipInline_bind ?_
  intro skipped ahead'
  refine atEffectsBlock_parses.bind ?_
  intro _ looked ahead'' position
  dsimp only
  split
  · exact stops invalidHere_parses
  have enough : least ≤ looked.position := by grind
  have onward : parser.position ≤ looked.position := by grind
  refine .mono (?_ : Mirrors alike _ _ looked fun _ after => looked.position < after.position)
    fun _ _ _ taken => Nat.lt_of_le_of_lt onward taken
  refine reads rfl rfl ?_
  split
  · next found =>
    split
    · exact parseModuleImport_parses (lt_length_of_kind found)
    · exact invalidHere_parses
  · next found => exact parseDeclaration_parses ready enough (lt_length_of_kind found)
  · next found => exact parseDeclaration_parses ready enough (lt_length_of_kind found)
  · next found => exact parseExport_parses ready enough (lt_length_of_kind found)
  · next found => exact parseUnset_parses (lt_length_of_kind found)
  · next found => exact parseFunction_parses ready enough (lt_length_of_kind found)
  · next found => exact parseAction_parses ready enough (lt_length_of_kind found)
  · next found => exact parseTask_parses (lt_length_of_kind found)
  · next found => exact parseNominalType_parses ready enough (lt_length_of_kind found)
  · next found => exact parseVariantType_parses ready enough (lt_length_of_kind found)
  · next found =>
    refine (parseIfNode_parses ready enough (lt_length_of_kind found)).bind ?_
    rintro ⟨_, _⟩ after _ parsed
    exact .pure parsed.taken
  · next found => exact parseWhile_parses ready enough (lt_length_of_kind found)
  · next found => exact parseFor_parses ready enough (lt_length_of_kind found)
  · next found => exact parseMatchIn_parses ready heeds enough (lt_length_of_kind found)
  · next found => exact parseTry_parses ready enough (lt_length_of_kind found)
  · next found => exact parseThrow_parses ready enough (lt_length_of_kind found)
  · next found => exact parseControl_parses (lt_length_of_kind found)
  · next found => exact parseControl_parses (lt_length_of_kind found)
  · next found => exact parseReturn_parses ready enough (lt_length_of_kind found)
  · exact invalidHere_parses
  · exact invalidHere_parses
  · refine answers nameIsAssignment_answers ?_
    intro assigned ahead3
    split
    · next holds =>
      obtain ⟨_, _, beyond, there, assigns, between⟩ := ahead3 holds
      exact parseAssignmentIn_parses ready heeds enough beyond there assigns between
    refine assume fun valid => ?_
    refine answers (nameIsIndexedAssignment_answers valid) ?_
    intro _ _
    split
    · exact parseIndexedAssignment_parses ready enough
    · exact parseJobStatement_parses ready enough
  · exact parseJobStatement_parses ready enough
  · exact incompleteHere_parses

omit ready in
theorem recover_past (reached : Later input start parser) (before : Before input closing start.position) :
    Parses alike (recover closing) parser fun _ after => Passed input start.position after := by
  refine (synchronize_past reached before).bind ?_
  intro _ synchronized _ passed
  refine assume fun valid => ?_
  refine .mono skipSeparatorsWithDocumentation_parses ?_
  intro _ after later _
  exact passed.later valid.sound later

omit ready in
theorem recover_parses : Parses alike (recover closing) parser fun _ _ => True := by
  refine synchronize_parses.bind ?_
  intro _ _ _ _
  exact skipSeparatorsWithDocumentation_parses

omit ready in
theorem before_of_listing (inside : parser.position < input.tokens.length)
    (other : ¬ (closing.any fun side => input.tokens[parser.position]?.map (·.kind) == some (.delimiter side)) = true) :
    Before input closing parser.position := by
  have found := List.getElem?_eq_getElem inside
  refine ⟨_, found, ?_⟩
  rw [found] at other
  cases closing with
  | none => rfl
  | some => simpa using other

/-- A pass that goes on started inside the tokens and uncancelled, and took a token or
is cancelled. -/
structure Continues (input : ParserInput source) (first second : Parser source) : Prop where
  inside : first.position < input.tokens.length
  going : ¬ Tripped input first
  passed : Passed input first.position second

/-- Every turn of a statement list that goes on takes a token, also where a statement
was refused, unless recovery is cancelled; and none goes on from there. -/
theorem statementTurnIn_parses (heeds : watched = true ∨ input.Calm) {listing : Listing source}
    (from_ : least ≤ parser.position) :
    Mirrors alike (statementTurnIn watched grammar closing listing) (statementTurnIn false grammar' closing listing) parser fun turn after =>
      OnAgain (Continues input parser after) turn := by
  obtain ⟨statements, documentation⟩ := listing
  refine reads rfl rfl (reads rfl rfl ?_)
  split
  · exact Parses.pure trivial
  next going =>
  rw [Bool.or_eq_true, not_or] at going
  have inside : parser.position < input.tokens.length := by simpa using going.1
  have before := before_of_listing inside going.2
  refine checkCancelled_passes.bind ?_
  rintro _ polled ahead ⟨unmoved, calm⟩
  refine .observed_bind (parseStatementIn_parses ready heeds (by grind))
    (fun outcome tried ahead' seen kept => ?_) (fun error tried ahead' astray => ?_) fun error tried doomed => ?_
  rotate_left
  · rw [astray.eq]
    exact ⟨tried, rfl, Nat.le_refl _, ahead'⟩
  · rcases doomed.cases with rfl | rfl
    · exact ⟨_, _, rfl, doomed⟩
    · exact ⟨_, _, rfl, doomed⟩
  refine .of_follows ahead' ?_
  split
  · refine pushDiagnostic_parses.bind ?_
    intro _ pushed ahead'' _
    refine (recover_past (.trans ahead (.trans ahead' ahead'')) before).bind ?_
    intro _ after _ passed
    exact .pure ⟨inside, calm, passed⟩
  · exact Parses.throw seen (kept _ rfl)
  next statement =>
  have taken : polled.position < tried.position := seen
  have onward : ∀ {later : Parser source}, Later input tried later → Continues input parser later := by
    intro later reached
    exact ⟨inside, calm, .inl (by grind)⟩
  refine skipInline_bind ?_
  intro skipped ahead''
  split
  · refine skipSeparatorsWithDocumentation_parses.bind ?_
    intro _ after final _
    exact .pure (onward (.trans ahead'' final))
  refine reads rfl rfl (reads rfl rfl ?_)
  split
  · exact Parses.pure trivial
  refine reads rfl rfl ?_
  have resumes : ∀ message, Parses alike (do
      reportHere message
      let documentation ← recover closing
      return .again (statements ++ [statement], documentation)) skipped
        fun (turn : Turn (Listing source) (List (Statement source.Region))) after =>
          OnAgain (Continues input parser after) turn := by
    intro message
    refine reportHere_parses.bind ?_
    intro _ reported final _
    refine recover_parses.bind ?_
    intro _ after final' _
    exact .pure (onward (.trans ahead'' (.trans final final')))
  split
  · exact resumes _
  refine reads rfl rfl ?_
  split
  · exact resumes _
  · refine skipSeparatorsWithDocumentation_parses.bind ?_
    intro _ after final _
    exact .pure (onward (.trans ahead'' final))

omit ready in
/-- A loop that goes on only from where it is not cancelled, and takes a token or is
cancelled whenever it does. -/
theorem iterate_passes {α β : Type} {body body' : α → ParseM source (Turn α β)} {first : α}
    (pass : ∀ current middle, Later input parser middle →
      Mirrors alike (body current) (body' current) middle fun turn after => OnAgain (Continues input middle after) turn) :
    Mirrors alike (iterate body first) (iterate body' first) parser fun _ _ => True := by
  -- cancelled, one more pass ends the loop; before that, what is left of the tokens falls
  let measure : Parser source → Nat := fun state =>
    if Tripped input state then 0 else input.tokens.length - state.position
  have small : measure parser < input.tokens.length + 1 := by
    show (if _ then _ else _) < _
    split
    · exact Nat.succ_pos _
    · exact Nat.lt_succ_of_le (Nat.sub_le _ _)
  refine iterate_measured measure (fun _ _ => True) small trivial ?_
  intro current middle later _
  refine .mono (pass current middle later) ?_
  rintro (next | result) after _ turned
  · obtain ⟨inside, going, passed⟩ : Continues input middle after := turned
    refine ⟨trivial, ?_⟩
    show (if _ then _ else _) < (if _ then _ else _)
    split
    · exact Nat.sub_pos_of_lt inside
    · next still => exact Nat.sub_lt_sub_left inside (passed.resolve_right still)
  · exact trivial

theorem parseStatementListIn_parses (heeds : watched = true ∨ input.Calm) (from_ : least ≤ parser.position) :
    Mirrors alike (parseStatementListIn watched grammar closing) (parseStatementListIn false grammar' closing) parser fun _ _ => True := by
  refine checkCancelled_parses.bind ?_
  intro _ polled ahead unmoved
  refine skipSeparatorsWithDocumentation_parses.bind ?_
  intro documentation skipped ahead' _
  refine iterate_passes ?_
  intro listing middle later
  have enough : least ≤ middle.position := by grind
  exact statementTurnIn_parses ready heeds enough

end Rules

end Opaal.Syntax.Parser
