import Opaal.Syntax.LexerLossless
import Opaal.Syntax.Parser.Progress.Statements

/-!
# Parsing reaches an outcome on every source

The tokens of a source are what the parser's rules assume of their input, the
knot of the grammar is never exhausted, and a script therefore ends complete,
incomplete, or invalid with a diagnostic.
-/

namespace Opaal.Syntax

open Opaal.Machine List
open Opaal.Text

/-! ## Single-quoted tokens -/

namespace Scan

variable {view : View} {tail : List Char} {lexeme : Lexeme}

variable {rule : List Char → Option Lexeme}

/-- Only one rule makes single-quoted tokens, and it takes a quote first. -/
theorem normalRules_quoted (listed : rule ∈ normalRules view) (found : rule tail = some lexeme)
    (quoted : lexeme.kind = .singleQuoted) :
    ∃ body, lexeme.text = '\'' :: body := by
  simp only [normalRules, mem_cons, not_mem_nil, or_false] at listed
  rcases listed with rfl | rfl | rfl | rfl | rfl | rfl | rfl | rfl | rfl | rfl | rfl | rfl | rfl
  · simp only [invalidSourceCharacter] at found
    split_ifs at found <;> cases found <;> cases quoted
  · simp only [horizontalTrivia] at found
    split_ifs at found
    cases found
    cases quoted
  · simp only [newline] at found
    split_ifs at found <;> cases found <;> cases quoted
  · simp only [bareEscape] at found
    split_ifs at found <;> cases found <;> cases quoted
  · simp only [comment] at found
    split_ifs at found <;> cases found <;> cases quoted
  · simp only [singleQuoted] at found
    split_ifs at found
    cases found
    exact ⟨_, rfl⟩
  · simp only [doubleQuoteStart] at found
    split_ifs at found
    cases found
    cases quoted
  · simp only [removedDollarSyntax] at found
    split_ifs at found
    cases found
    cases quoted
  · simp only [closeInterpolation] at found
    split_ifs at found
    cases found
    cases quoted
  · simp only [operator, Option.map_eq_some_iff] at found
    obtain ⟨_, _, rfl⟩ := found
    cases quoted
  · cases tail with
    | nil => cases found
    | cons =>
      simp only [delimiter] at found
      split_ifs at found
      obtain ⟨_, _, rfl⟩ := Option.map_eq_some_iff.mp found
      cases quoted
  · cases tail with
    | nil => cases found
    | cons c more =>
      simp only [identifier] at found
      split_ifs at found
      cases found
      cases known : keyword (c :: bytesWhile isIdentifierContinue more) <;> simp [known] at quoted
  · simp only [number] at found
    split_ifs at found
    split at found <;> cases found
    · cases quoted
    · simp [decimal] at quoted

theorem doubleQuotedRules_unquoted (listed : rule ∈ doubleQuotedRules view) (found : rule tail = some lexeme) : lexeme.kind ≠ .singleQuoted := by
  simp only [doubleQuotedRules, mem_cons, not_mem_nil, or_false] at listed
  rcases listed with rfl | rfl | rfl | rfl
  · simp only [doubleQuoteEnd] at found
    split_ifs at found
    cases found
    simp
  · simp only [invalidSourceCharacter] at found
    split_ifs at found <;> cases found <;> simp [fixed]
  · simp only [doubleEscape] at found
    split_ifs at found <;> cases found <;> simp [fixed]
    cases unicodeEscapeError _ <;> simp
  · simp only [doubleQuotedBrace] at found
    split_ifs at found <;> cases found <;> simp [fixed]

theorem next_quoted (quoted : (next view tail).kind = .singleQuoted) : ∃ body, (next view tail).text = '\'' :: body := by
  have outside : (normal view tail).kind = .singleQuoted → ∃ body, (normal view tail).text = '\'' :: body := by
    intro quoted
    unfold normal at quoted ⊢
    cases found : (normalRules view).findSome? (· tail) with
    | none =>
      rw [found] at quoted
      cases tail <;> cases quoted
    | some =>
      obtain ⟨rule, listed, spelled⟩ := exists_of_findSome?_eq_some found
      rw [found] at quoted
      exact normalRules_quoted listed spelled quoted
  unfold next at quoted ⊢
  split at quoted
  · next inside =>
    unfold doubleQuoted at quoted
    cases found : (doubleQuotedRules view).findSome? (· tail) with
    | none =>
      rw [found] at quoted
      cases quoted
    | some =>
      obtain ⟨_, listed, spelled⟩ := exists_of_findSome?_eq_some found
      rw [found] at quoted
      exact absurd quoted (doubleQuotedRules_unquoted listed spelled)
  · exact outside quoted
  · exact outside quoted

theorem lexemes_quoted {bound : Nat} {reader : Reader} {tail : List Char} :
    ∀ lexeme ∈ lexemes bound reader tail, lexeme.kind = .singleQuoted → ∃ body, lexeme.text = '\'' :: body := by
  induction bound generalizing reader tail with
  | zero => simp [lexemes]
  | succ _ ih =>
    intro lexeme listed quoted
    unfold lexemes at listed
    split at listed
    · cases listed
    · rcases mem_cons.mp listed with rfl | later
      · exact next_quoted quoted
      · exact ih lexeme later quoted

end Scan

/-! ## Placed tokens -/

section Placed

variable {source : SourceFile}

/-- A placed token without the proof that it is one. -/
def PlacedToken.bare (token : PlacedToken source) : Token := ⟨token.kind, token.span.toSpan⟩

variable {token : Token} {start : Nat} {tokens : List Token} {lexemes : List Lexeme}

theorem placed_of_covers (covers : source.Covers token.span) :
    ∃ placed, token.placed source = .ok placed ∧ placed.bare = token := by
  have valid := SourceFile.validateSpan_of_covers covers
  unfold Token.placed
  split
  · exact ⟨_, rfl, rfl⟩
  · next error failed =>
    rw [valid] at failed
    cases failed

theorem placed_of_tiles {stop : Nat} (tiles : Tiles source start tokens stop) :
    ∃ placed, tokens.mapM (Token.placed source) = .ok placed ∧ placed.map PlacedToken.bare = tokens := by
  induction tokens generalizing start with
  | nil => exact ⟨[], rfl, rfl⟩
  | cons _ _ ih =>
    obtain ⟨_, _, covers, rest⟩ := tiles
    obtain ⟨first, firstPlaced, firstBare⟩ := placed_of_covers covers
    obtain ⟨placed, placedAll, bareAll⟩ := ih rest
    refine ⟨first :: placed, ?_, by rw [map_cons, firstBare, bareAll]⟩
    rw [mapM_cons, firstPlaced, placedAll]
    rfl

theorem tiles_start (tiles : Tiles source start tokens source.len) :
    start = (tokens.head?).elim source.len (·.span.start) := by
  cases tokens with
  | nil => exact tiles
  | cons => exact tiles.1.symm

theorem tiles_contiguous {index : Nat} (tiles : Tiles source start tokens source.len) (found : tokens[index]? = some token) :
    token.span.stop = tokens[index + 1]?.elim source.len (·.span.start) := by
  induction tokens generalizing start index with
  | nil => cases found
  | cons _ more ih =>
    obtain ⟨_, _, _, rest⟩ := tiles
    cases index with
    | zero =>
      cases found
      rw [tiles_start rest]
      cases more <;> rfl
    | succ => exact ih rest found

theorem text_of_region (region : source.Region) : ∃ text, source.slice region.toSpan = .ok text := by
  obtain ⟨_, middle, _, _, _, _, sliced⟩ := region.covers.split
  exact ⟨middle, sliced⟩

/-! ## The classifier -/

variable (tokens : List (PlacedToken source)) (walk : Walk source)

theorem firstInvalid_answers : ∃ found, firstInvalid tokens = .ok found := by
  induction tokens with
  | nil => exact ⟨none, rfl⟩
  | cons token _ ih =>
    obtain ⟨text, read⟩ := text_of_region token.span
    have read : token.text = .ok text := read
    unfold firstInvalid
    rw [read]
    split
    · exact ⟨_, rfl⟩
    · exact ih

/-- The text of a single-quoted token that is closed. -/
def Quoted (token : PlacedToken source) : Prop :=
  token.kind = .singleQuoted → ∃ text, token.text = .ok text ∧ 2 ≤ width text ∧ text.getLast? = some '\''

/-- What a verdict on one token rests on. -/
def Judged (token : PlacedToken source) :
    Except (SyntaxClassification source.Region) (List (Frame source.Region)) → Prop
  | .ok _ => Quoted token
  | .error classification => classification ≠ .complete

/-- A token is classified, and one that is passed is not an open quote. -/
theorem classifyToken_answers (token : PlacedToken source) (next : Option (PlacedToken source)) :
    ∃ verdict, classifyToken walk token next = .ok verdict ∧ Judged token verdict := by
  obtain ⟨text, read⟩ := text_of_region token.span
  have read : token.text = .ok text := read
  have unquoted : token.kind ≠ .singleQuoted → Quoted token := fun other quoted => absurd quoted other
  unfold classifyToken
  split
  · rw [read]
    simp only [bind, Except.bind, pure, Except.pure]
    split
    · exact ⟨_, rfl, by simp [Judged]⟩
    · next closed =>
      refine ⟨_, rfl, ?_⟩
      intro _
      simp only [Bool.or_eq_true, decide_eq_true_eq, bne_iff_ne, not_or, not_lt, ne_eq, not_not] at closed
      exact ⟨text, read, closed.1, closed.2⟩
  · next kind => exact ⟨_, rfl, unquoted (by simp [kind])⟩
  · next kind =>
    split
    · exact ⟨_, rfl, unquoted (by simp [kind])⟩
    · exact ⟨_, rfl, by simp [Judged, unexpectedCloser]⟩
  · next kind => exact ⟨_, rfl, unquoted (by simp [kind])⟩
  · next kind =>
    split
    · exact ⟨_, rfl, unquoted (by simp [kind])⟩
    · exact ⟨_, rfl, by simp [Judged, unexpectedCloser]⟩
  · next other _ _ _ _ => exact ⟨_, rfl, unquoted other⟩

theorem classifyEnd_answers : ∃ classification, classifyEnd walk = .ok classification := by
  unfold classifyEnd
  split
  · exact ⟨_, rfl⟩
  split
  · exact ⟨_, rfl⟩
  next token _ =>
  obtain ⟨text, read⟩ := text_of_region token.span
  have read : token.text = .ok text := read
  have required : ∃ reason, trailingRequirement token = .ok reason := by
    unfold trailingRequirement
    split
    · rw [read]
      exact ⟨_, rfl⟩
    all_goals exact ⟨_, rfl⟩
  obtain ⟨reason, required⟩ := required
  rw [required]
  cases reason <;> exact ⟨_, rfl⟩

/-- Tokens are classified, and in a complete script every quote is closed. -/
theorem classifyFrom_answers (tokens : List (PlacedToken source)) :
    ∃ classification, classifyFrom walk tokens = .ok classification ∧
      (classification = .complete → ∀ token ∈ tokens, Quoted token) := by
  induction tokens generalizing walk with
  | nil =>
    obtain ⟨classification, ended⟩ := classifyEnd_answers walk
    exact ⟨classification, ended, by simp⟩
  | cons token more ih =>
    obtain ⟨verdict, classified, closed⟩ := classifyToken_answers walk token more.head?
    unfold classifyFrom
    rw [classified]
    cases verdict with
    | error classification =>
      refine ⟨classification, rfl, ?_⟩
      intro complete
      exact absurd complete closed
    | ok frames =>
      obtain ⟨classification, rest, closedRest⟩ := ih (walk.past token frames)
      refine ⟨classification, rest, ?_⟩
      intro complete other listed
      rcases mem_cons.mp listed with rfl | later
      · exact closed
      · exact closedRest complete other later

theorem classifyOpaalTokens_answers :
    ∃ classification, classifyOpaalTokens tokens = .ok classification ∧
      (classification = .complete → ∀ token ∈ tokens, Quoted token) := by
  obtain ⟨found, first⟩ := firstInvalid_answers tokens
  unfold classifyOpaalTokens
  rw [first]
  cases found with
  | some diagnostic => exact ⟨.invalid diagnostic, rfl, by simp⟩
  | none => exact classifyFrom_answers _ tokens

/-- A placed lexeme keeps its kind and its text. -/
theorem place_member {front : List Char} (spelled : source.text = front ++ lexemes.flatMap (·.text))
    (listed : token ∈ Scan.place source.id (width front) lexemes) :
    ∃ lexeme ∈ lexemes, token.kind = lexeme.kind ∧ token.text source = .ok lexeme.text := by
  induction lexemes generalizing front with
  | nil => cases listed
  | cons lexeme _ ih =>
    rw [flatMap_cons, ← append_assoc] at spelled
    rcases mem_cons.mp listed with rfl | later
    · exact ⟨lexeme, mem_cons_self, rfl, SourceFile.slice_append front lexeme.text _ spelled⟩
    · rw [← width_append] at later
      obtain ⟨found, among, kind, text⟩ := ih spelled later
      exact ⟨found, mem_cons_of_mem _ among, kind, text⟩

/-- A text in quotes, from its two ends. -/
theorem quoted_ends {body : List Char} (long : 2 ≤ width ('\'' :: body)) (last : ('\'' :: body).getLast? = some '\'') :
    ∃ inner, '\'' :: body = '\'' :: (inner ++ ['\'']) := by
  have nonempty : body ≠ [] := by
    rintro rfl
    exact absurd long (by decide)
  rw [List.getLast?_cons_of_ne_nil nonempty, List.getLast?_eq_some_iff] at last
  obtain ⟨inner, rfl⟩ := last
  exact ⟨inner, rfl⟩

/-- The tokens of a source that is classified complete are what the rules assume. -/
theorem lexed_of_lexemes {placed : List (PlacedToken source)} {isCancelled : Nat → Bool}
    (spelled : source.text = lexemes.flatMap (·.text)) (nonempty : ∀ lexeme ∈ lexemes, lexeme.text ≠ [])
    (starts : ∀ lexeme ∈ lexemes, lexeme.kind = .singleQuoted → ∃ body, lexeme.text = '\'' :: body)
    (bare : placed.map PlacedToken.bare = Scan.place source.id 0 lexemes) (closed : ∀ token ∈ placed, Quoted token)
    (stays : ∀ polls, isCancelled polls = true → isCancelled (polls + 1) = true) :
    (ParserInput.mk placed isCancelled).Lexed where
  contiguous := by
    intro index token found
    have tiles : Tiles source (width []) (Scan.place source.id (width []) lexemes) source.len :=
      place_tiles [] spelled nonempty
    rw [width_nil, ← bare] at tiles
    have there : (placed.map PlacedToken.bare)[index]? = some token.bare := by
      rw [List.getElem?_map, found]
      rfl
    have stops := tiles_contiguous tiles there
    rw [List.getElem?_map] at stops
    unfold ParserInput.offset
    cases ahead : placed[index + 1]? <;> rw [ahead] at stops <;> exact stops
  quoted := by
    intro token listed kind
    have among : token.bare ∈ Scan.place source.id (width []) lexemes := by
      rw [width_nil, ← bare]
      exact mem_map_of_mem listed
    obtain ⟨lexeme, lexed, sameKind, sameText⟩ := place_member spelled among
    have sameText : token.text = .ok lexeme.text := sameText
    obtain ⟨_, text⟩ := starts lexeme lexed (sameKind.symm.trans kind)
    obtain ⟨_, readText, long, last⟩ := closed token listed kind
    rw [sameText, Except.ok.injEq] at readText
    subst readText
    rw [text] at long last
    obtain ⟨inner, quoted⟩ := quoted_ends long last
    exact ⟨inner, by rw [sameText, text, quoted]⟩
  stays := stays

end Placed

/-! ## The knot -/

namespace Parser

variable {source : SourceFile} {input : ParserInput source} {alike : Alike input} {parser : Parser source}

/-- A parse followed on the same input. -/
def Alike.watching (lexed : input.Lexed) : Alike input where
  isCancelled := input.isCancelled
  lost := fun _ => False
  stays := fun _ lost => lost
  answers := fun _ _ => rfl
  cancels := fun _ cancelled later => lexed.stays_from later cancelled

variable {watched : Bool}

/-- A grammar as deep as there are tokens past a position is ready past it. -/
theorem grammarIn_ready (heeds : watched = true ∨ input.Calm) {depth least : Nat} (deep : input.tokens.length ≤ least + depth) : Ready alike (grammarIn watched depth) (grammarIn false depth) least := by
  induction depth generalizing least with
  | zero =>
    have never : ∀ {α : Type} {leading following : ParseM source α} {post : α → Parser source → Prop} {parser : Parser source},
        least < parser.position → Mirrors alike leading following parser post := by
      intro α leading following post parser past
      refine .assume fun valid => ?_
      have := valid.within
      omega
    exact ⟨never, never, never, never, never, fun _ => never, fun past _ => never past⟩
  | succ depth ih =>
    have entered : ∀ {parser : Parser source}, least < parser.position →
        Ready alike (grammarIn watched depth) (grammarIn false depth) parser.position := by
      intro parser past
      exact ih (by omega)
    exact {
      expression := fun past => parseExpression_parses (entered past) (Nat.le_refl _)
      unary := fun past => parseUnary_parses (entered past) (Nat.le_refl _)
      conditionalChain := fun past => parseConditionalChain_parses (entered past) (Nat.le_refl _)
      pattern := fun past => parsePattern_parses (entered past) (Nat.le_refl _)
      typeReference := fun past => parseTypeReference_parses (entered past) (Nat.le_refl _)
      statementList := fun _ past => parseStatementListIn_parses (entered past) heeds (Nat.le_refl _)
      ifNode := fun past inside => parseIfNode_parses (entered past) (Nat.le_refl _) inside }

theorem grammarOf_ready (calm : input.Calm) {depth least : Nat} (deep : input.tokens.length ≤ least + depth) :
    Ready alike (grammarOf depth) (grammarOf depth) least := by
  rw [← grammarIn_false]
  exact grammarIn_ready (.inr calm) deep

/-! ## Scripts -/

/-- The census writes only the ends of brackets, and it fails only where it is
cancelled. -/
def censusOrder (input : ParserInput source) : Order (ParseError source) (Parser source) where
  valid := fun _ => True
  later := fun first second => second.bracketEnds.length = first.bracketEnds.length ∧
    second.position = first.position ∧ first.polls ≤ second.polls
  allowed := fun error => error = .cancelled ∧ ¬ input.Calm
  refl := fun _ => ⟨rfl, rfl, Nat.le_refl _⟩
  trans := fun one two => ⟨two.1.trans one.1, two.2.1.trans one.2.1, Nat.le_trans one.2.2 two.2.2⟩
  keeps := fun _ => id

def Alike.census (alike : Alike input) : Comparison (ParserInput source) (ParseError source) (Parser source) :=
  alike.under (censusOrder input) fun later => later.2.2

/-- A check of the census. -/
theorem census_polls : Follows alike.census checkCancelled checkCancelled parser fun _ after =>
    after = { parser with polls := parser.polls + 1 } := by
  have polls : Follows alike.census isCancelled isCancelled parser fun answer after =>
      answer = input.isCancelled parser.polls ∧ after = { parser with polls := parser.polls + 1 } := by
    refine ⟨.of_eq rfl ⟨rfl, rfl, Nat.le_succ _⟩ ⟨rfl, rfl⟩, fun _ => ⟨Nat.le_succ _, fun going => ?_⟩⟩
    show EStateM.Result.ok (alike.isCancelled parser.polls) _ = _
    rw [alike.answers parser.polls going]
    rfl
  refine .bind polls ?_
  rintro _ _ _ ⟨rfl, rfl⟩
  split
  · next cancelled =>
    refine .throw ⟨rfl, fun calm => ?_⟩ .elim
    rw [calm parser.polls] at cancelled
    cases cancelled
  · exact .pure rfl

/-- The census keeps to the brackets it has opened. -/
theorem censusBrackets_follows (left : List (PlacedToken source))
    (position : Nat) (brackets : List Nat) (room : position + left.length ≤ parser.bracketEnds.length)
    (opened : ∀ bracket ∈ brackets, bracket < position) :
    Follows alike.census (censusBrackets left position brackets) (censusBrackets left position brackets) parser
      fun _ _ => True := by
  induction left generalizing position brackets parser with
  | nil => exact .pure trivial
  | cons token more ih =>
    rw [length_cons] at room
    have room : position + 1 + more.length ≤ parser.bracketEnds.length := by omega
    have older : ∀ bracket ∈ brackets, bracket < position + 1 := fun bracket among =>
      Nat.lt_succ_of_lt (opened bracket among)
    refine .bind census_polls ?_
    rintro _ _ _ rfl
    split
    · refine ih (position + 1) (position :: brackets) room ?_
      intro bracket among
      rcases mem_cons.mp among with rfl | before
      · exact Nat.lt_succ_self _
      · exact older bracket before
    · split
      · exact ih (position + 1) [] room (by simp)
      · next innermost outer =>
        have inside := opened innermost mem_cons_self
        have below : ¬ parser.bracketEnds.length ≤ innermost := by omega
        refine .reads rfl rfl ?_
        rw [if_neg below]
        let written : Parser source := { parser with
          polls := parser.polls + 1
          bracketEnds := parser.bracketEnds.set innermost position }
        have writing : Follows alike.census (set written : ParseM source Unit) (set written : ParseM source Unit)
            { parser with polls := parser.polls + 1 } fun _ after => after.bracketEnds.length = parser.bracketEnds.length :=
          .of_eq rfl rfl ⟨length_set, rfl, Nat.le_refl _⟩ length_set
        refine Follows.bind writing ?_
        intro _ after _ same
        refine ih (position + 1) outer (by omega) ?_
        intro bracket among
        exact older bracket (mem_cons_of_mem _ among)
    · exact ih (position + 1) brackets room older

/-- The errors a script may end with.  It is cancelled or stumbles only where the
predicate may cancel. -/
def Settled (input : ParserInput source) : ParseError source → Prop
  | .incomplete _ | .invalid _ => True
  | .invalidMany diagnostics => diagnostics = [] → ¬ input.Calm
  | .cancelled => ¬ input.Calm
  | _ => False

/-- The discipline of a whole script: it stays in states rules are entered in. -/
def scriptOrder (input : ParserInput source) : Order (ParseError source) (Parser source) where
  valid := Entered input
  later := fun first second => (Entered input first → Entered input second) ∧ first.polls ≤ second.polls
  allowed := Settled input
  refl := fun _ => ⟨id, Nat.le_refl _⟩
  trans := fun one two => ⟨fun valid => two.1 (one.1 valid), Nat.le_trans one.2 two.2⟩
  keeps := fun later valid => later.1 valid

def Alike.script (alike : Alike input) : Comparison (ParserInput source) (ParseError source) (Parser source) :=
  alike.under (scriptOrder input) fun later => later.2

theorem Mirrors.script {α : Type} {leading following : ParseM source α} {post : α → Parser source → Prop}
    (mirrors : Mirrors alike leading following parser post) : Follows alike.script leading following parser post where
  ends := by
    refine Runs.widen mirrors.runs (fun valid => valid) (fun _ later => ⟨later.keeps, later.polls⟩) ?_
    intro error expected
    cases error with
    | incomplete | invalid => trivial
    | invalidMany => exact fun _ => expected.2
    | cancelled | panicked | exhausted => exact expected
  shadows := mirrors.shadows

theorem censusBrackets_script : Follows alike.script (censusBrackets input.tokens 0 []) (censusBrackets input.tokens 0 []) parser
    fun _ _ => True := by
  refine Follows.assume fun valid => ?_
  have room : 0 + input.tokens.length ≤ parser.bracketEnds.length := by
    rw [Nat.zero_add, valid.brackets]
  have census : Follows alike.census (censusBrackets input.tokens 0 []) (censusBrackets input.tokens 0 []) parser
      fun _ _ => True := censusBrackets_follows input.tokens 0 [] room (by simp)
  refine ⟨Runs.widen census.ends (fun _ => trivial) ?_ ?_, fun _ => census.shadows trivial⟩
  · rintro after ⟨length, unmoved, polls⟩
    refine ⟨fun entered => ⟨entered.sound, ?_, ?_⟩, polls⟩
    · rw [unmoved]
      exact entered.within
    · rw [length]
      exact entered.brackets
  · rintro _ ⟨rfl, cancels⟩
    exact cancels

/-- A script ends with a tree and no diagnostic, or with an error that says why not; and
a watched one is followed by one that is not. -/
theorem parseScriptIn_follows (heeds : watched = true ∨ input.Calm) :
    Follows alike.script (parseScriptIn watched) (parseScriptIn false) parser fun _ after => after.diagnostics = [] := by
  have whole : IsBoundary source.text source.len := ⟨source.text, [], by simp, rfl⟩
  have start : IsBoundary source.text 0 := ⟨[], source.text, rfl, rfl⟩
  have finish : ∀ (statements : List (Statement source.Region)) (state : Parser source) (rule : ParseM source (Script source.Region)),
      rule = (do
        let parser ← get
        if !parser.diagnostics.isEmpty then throw (.invalidMany parser.diagnostics)
        let span ← span 0 source.len
        return ({ statements, span } : Script source.Region)) →
      Follows alike.script rule rule state fun _ after => after.diagnostics = [] := by
    rintro statements state _ rfl
    refine Follows.reads rfl rfl ?_
    split
    · next reported =>
      have nonempty : state.diagnostics ≠ [] := by simpa using reported
      exact Follows.stops (Follows.throw (fun empty => absurd empty nonempty) fun empty => absurd empty nonempty)
    · next silent =>
      refine Follows.bind (Mirrors.script (span_parses start whole (Nat.zero_le _))) ?_
      rintro _ _ _ ⟨rfl, _⟩
      exact Follows.pure (by simpa using silent)
  refine Follows.bind (Mirrors.script checkCancelled_parses) ?_
  intro _ polled _ _
  refine Follows.input ?_
  refine Follows.bind censusBrackets_script ?_
  intro _ counted _ _
  have ready : Ready alike (grammarIn watched (input.tokens.length + 1)) (grammarIn false (input.tokens.length + 1)) 0 :=
    grammarIn_ready heeds (by omega)
  refine Follows.bind (Mirrors.script (parseStatementListIn_parses ready heeds (Nat.zero_le _))) ?_
  intro statements listed _ _
  refine Follows.bind (Mirrors.script skipSeparators_parses) ?_
  intro _ skipped _ _
  refine Follows.reads rfl rfl ?_
  split
  · refine Follows.bind (Mirrors.script reportHere_parses) ?_
    intro _ reported _ _
    exact finish statements reported _ rfl
  · exact finish statements skipped _ rfl

theorem parseScriptIn_runs (heeds : watched = true ∨ input.Calm) :
    Runs (scriptOrder input) (parseScriptIn watched) input parser fun _ after => after.diagnostics = [] := by
  intro valid
  have follows : Follows (Alike.watching valid.sound).script (parseScriptIn watched) (parseScriptIn false) parser _ :=
    parseScriptIn_follows heeds
  exact follows.ends valid

theorem new_entered (lexed : input.Lexed) : Entered input (.new input) where
  sound := lexed
  within := Nat.zero_le _
  brackets := by simp [Parser.new]

/-! ## Progress -/

/-- A loop body takes a token whenever it goes on. -/
def Consumes {α β : Type} (input : ParserInput source) (turn : ParseM source (Turn α β)) (parser : Parser source) : Prop :=
  ∀ next after, turn input parser = .ok (.again next) after → parser.position < after.position

theorem Consumes.of_runs {α β : Type} {turn : ParseM source (Turn α β)} {post : Turn α β → Parser source → Prop}
    (valid : Entered input parser) (runs : Runs (order input) turn input parser post)
    (goes : ∀ next after, post (.again next) after → parser.position < after.position) :
    Consumes input turn parser := by
  intro next after result
  have outcome := runs valid
  rw [result] at outcome
  exact goes next after outcome.2

theorem skipTurn_consumes (valid : Entered input parser) (accepts : TokenKind → Bool) :
    Consumes input (skipTurn accepts ()) parser := by
  have turned : Parses (.watching valid.sound) (skipTurn accepts ()) parser fun taken after =>
      match taken with
      | .again _ => parser.position < after.position
      | .done _ => True := by
    refine .reads rfl rfl ?_
    split
    · next accepted =>
      refine unlessCancelled (fun _ _ => .pure trivial) ?_
      intro polled _ unmoved
      have inside : polled.position < input.tokens.length := by
        rw [unmoved.position]
        rw [Option.any_eq_true] at accepted
        obtain ⟨kind, found, _⟩ := accepted
        exact lt_length_of_kind found
      refine (advance_inside_parses inside).bind ?_
      rintro _ after _ ⟨_, took⟩
      exact .pure (by grind)
    · exact Parses.pure trivial
  exact .of_runs valid turned.runs fun _ _ taken => taken

end Parser

/-! ## Sources -/

/-- An outcome that says what it has to say: an invalid one has a diagnostic. -/
def ParseOutcome.Reported {source : SourceFile} : ParseOutcome source → Prop
  | .complete _ | .incomplete _ => True
  | .invalid diagnostics => diagnostics ≠ []

/-- The lexer's tokens have their spans in the source, and the parser may be entered on
them under every predicate that stays true. -/
theorem lexOpaal_placed (source : SourceFile) :
    ∃ tokens placed, lexOpaal source = some tokens ∧ tokens.mapM (Token.placed source) = .ok placed ∧
      ∀ isCancelled : Nat → Bool, (∀ polls, isCancelled polls = true → isCancelled (polls + 1) = true) →
        (∀ token ∈ placed, Quoted token) → (ParserInput.mk placed isCancelled).Lexed := by
  have spelled := Scan.lexemes_spell Scan.Reader.new (Nat.lt_succ_of_le (length_le_width source.text))
  have spelledText : source.text = [] ++ (Scan.lexemes (source.len + 1) Scan.Reader.new source.text).flatMap (·.text) :=
    spelled.1.symm
  have tiles := place_tiles [] spelledText spelled.2
  obtain ⟨placed, placedAll, bare⟩ := placed_of_tiles tiles
  refine ⟨_, placed, lexOpaal_eq_place source, placedAll, fun isCancelled stays closed => ?_⟩
  exact lexed_of_lexemes spelledText spelled.2 Scan.lexemes_quoted bare closed stays

theorem parseTokens_settles {source : SourceFile} {tokens : List Token} {placed : List (PlacedToken source)}
    (placedAll : tokens.mapM (Token.placed source) = .ok placed)
    (lexed : (∀ token ∈ placed, Quoted token) → (ParserInput.mk placed fun _ => false).Lexed) :
    ∃ outcome spans, parseTokens source tokens (fun _ => false) = some (.parsed outcome, spans) ∧ outcome.Reported := by
  obtain ⟨classification, classified, closed⟩ := classifyOpaalTokens_answers placed
  unfold parseTokens
  rw [placedAll]
  simp only [classified]
  cases classification with
  | incomplete incomplete => exact ⟨.incomplete incomplete, [], rfl, trivial⟩
  | invalid diagnostic => exact ⟨.invalid [diagnostic], [], rfl, cons_ne_nil _ _⟩
  | complete =>
    have calm : (ParserInput.mk placed fun _ => false).Calm := fun _ => rfl
    have settled := Parser.parseScriptIn_runs (.inr calm : false = true ∨ _) (Parser.new_entered (lexed (closed rfl)))
    rw [Parser.parseScriptIn_false] at settled
    cases result : Parser.parseScript (ParserInput.mk placed fun _ => false)
        (.new (.mk placed fun _ => false)) with
    | ok script after => exact ⟨.complete script, _, rfl, trivial⟩
    | error error after =>
      rw [result] at settled
      have settled : Parser.Settled _ error := settled.2
      cases error with
      | incomplete incomplete => exact ⟨.incomplete incomplete, _, rfl, trivial⟩
      | invalid diagnostic => exact ⟨.invalid [diagnostic], _, rfl, cons_ne_nil _ _⟩
      | invalidMany diagnostics =>
        exact ⟨.invalid diagnostics, _, rfl, fun empty => absurd calm (settled empty)⟩
      | cancelled => exact absurd calm settled
      | panicked | exhausted => cases settled

/-- Every source is parsed to an outcome: no panic is reached and no loop runs on.  An
invalid outcome has a diagnostic.  Every span of a tree or a diagnostic is a region,
and a region lies inside the source on character boundaries.  In every state a rule
may be entered in, the loops that skip, synchronise and list statements take a token
whenever they go on. -/
theorem parseOpaal_total (source : SourceFile) :
    (∃ outcome, parseOpaal source = some outcome ∧ outcome.Reported) ∧
      (∀ region : source.Region, region.start ≤ region.stop ∧ region.stop ≤ source.len ∧
        IsBoundary source.text region.start ∧ IsBoundary source.text region.stop) ∧
      ∀ (input : ParserInput source) (parser : Parser source), parser.Valid input →
        (∀ accepts, parser.Consumes input (Parser.skipTurn accepts ())) ∧
          (∀ pending, parser.Consumes input (Parser.documentationTurn pending)) ∧
          (∀ closing delimiters, parser.Consumes input (Parser.synchronizeTurn closing delimiters)) ∧
          ∀ closing listing, parser.Consumes input
            (Parser.statementTurn (Parser.grammarOf (input.tokens.length + 1)) closing listing) := by
  refine ⟨?_, ?_, ?_⟩
  · obtain ⟨tokens, placed, lexed, placedAll, ready⟩ := lexOpaal_placed source
    have settled := parseTokens_settles placedAll (ready (fun _ => false) fun _ cancelled => cancelled)
    obtain ⟨outcome, spans, parsed, reported⟩ := settled
    refine ⟨outcome, ?_, reported⟩
    unfold parseOpaal
    simp only [lexed, Option.bind_eq_bind, Option.bind_some, parsed]
    rfl
  · intro region
    exact ⟨region.ordered, region.covers.stop_le_len, region.opens, region.closes⟩
  · intro input parser valid
    have calm := valid.sound.calm
    have entered := valid.entered
    let alike : Parser.Alike input := .watching valid.sound.lexed
    have ready : Parser.Ready alike (Parser.grammarOf (input.tokens.length + 1)) (Parser.grammarOf (input.tokens.length + 1)) 0 :=
      Parser.grammarOf_ready calm (by omega)
    refine ⟨Parser.skipTurn_consumes entered, ?_, ?_, ?_⟩
    · intro pending
      exact Parser.Consumes.of_runs entered (Parser.documentationTurn_parses : Parser.Parses alike _ _ _).runs fun _ _ taken => taken
    · intro closing delimiters
      exact Parser.Consumes.of_runs entered (Parser.synchronizeTurn_parses : Parser.Parses alike _ _ _).runs fun _ _ taken => taken
    · intro closing listing
      rw [← Parser.statementTurnIn_false]
      have heeds : false = true ∨ input.Calm := .inr calm
      refine .of_runs entered (Parser.statementTurnIn_parses ready heeds (Nat.zero_le _)).runs ?_
      intro next after continues
      exact continues.passed.taken calm

end Opaal.Syntax
