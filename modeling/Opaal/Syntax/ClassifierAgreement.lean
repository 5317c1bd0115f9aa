import Opaal.Syntax.Parser.Totality

/-!
# The classifier's frames and the lexer's contexts

The lexer nests strings and interpolations while it reads scalars, the classifier while it walks
the tokens.  At every token that the walk reaches, the strings and interpolations that are open in
its frames are those of the lexer when it produced the token.
-/

namespace Opaal.Syntax

open Opaal.Text List
open Lexer

/-! ## What a token does to the contexts -/

/-- Kinds that open and close nothing. -/
def TokenKind.plain : TokenKind → Bool
  | .doubleQuoteStart | .doubleQuoteEnd | .interpolationStart | .delimiter _ => false
  | _ => true

/-- The contexts before and after a token of a kind. -/
inductive Moves (contexts : List Context) : TokenKind → List Context → Prop where
  | opens (outside : contexts.head? ≠ some .doubleQuoted) : Moves contexts .doubleQuoteStart (.doubleQuoted :: contexts)
  | closes (inside : contexts.head? = some .doubleQuoted) : Moves contexts .doubleQuoteEnd contexts.tail
  | interpolates (inside : contexts.head? = some .doubleQuoted) :
      Moves contexts .interpolationStart (.interpolation 0 :: contexts)
  | returns (innermost : contexts.head? = some (.interpolation 0)) : Moves contexts (.delimiter .rightBrace) contexts.tail
  | nests (side : Delimiter) (outside : contexts.head? ≠ some .doubleQuoted)
      (nested : side = .rightBrace → contexts.head? ≠ some (.interpolation 0)) :
      Moves contexts (.delimiter side) (noteNested side contexts)
  | stays {kind : TokenKind} (plain : kind.plain = true) : Moves contexts kind contexts

namespace Scan

variable {view : View} {tail : List Char} {lexeme : Lexeme}

theorem invalidSourceCharacter_moves (found : invalidSourceCharacter view tail = some lexeme) :
    Moves view.contexts lexeme.kind lexeme.contexts := by
  simp only [invalidSourceCharacter] at found
  split_ifs at found <;> cases found <;> exact .stays rfl

/-- The rules before the one that closes an interpolation. -/
def earlyRules (view : View) : List (List Char → Option Lexeme) :=
  [invalidSourceCharacter view, horizontalTrivia view, newline view, bareEscape view, comment view,
   singleQuoted view, doubleQuoteStart view, removedDollarSyntax view]

/-- The rules behind it. -/
def lateRules (view : View) : List (List Char → Option Lexeme) :=
  [operator view, delimiter view, identifier view, number view]

variable {rule : List Char → Option Lexeme}

theorem earlyRules_moves (outside : view.contexts.head? ≠ some .doubleQuoted) (listed : rule ∈ earlyRules view)
    (found : rule tail = some lexeme) : Moves view.contexts lexeme.kind lexeme.contexts := by
  simp only [earlyRules, mem_cons, not_mem_nil, or_false] at listed
  rcases listed with rfl | rfl | rfl | rfl | rfl | rfl | rfl | rfl
  · exact invalidSourceCharacter_moves found
  · simp only [horizontalTrivia] at found
    split_ifs at found
    cases found
    exact .stays rfl
  · simp only [newline] at found
    split_ifs at found <;> cases found <;> exact .stays rfl
  · simp only [bareEscape] at found
    split_ifs at found <;> cases found <;> exact .stays rfl
  · simp only [comment] at found
    split_ifs at found <;> cases found <;> exact .stays rfl
  · simp only [singleQuoted] at found
    split_ifs at found
    cases found
    exact .stays rfl
  · simp only [doubleQuoteStart] at found
    split_ifs at found
    cases found
    exact .opens outside
  · simp only [removedDollarSyntax] at found
    split_ifs at found
    cases found
    exact .stays rfl

theorem closeInterpolation_moves (found : closeInterpolation view tail = some lexeme) :
    Moves view.contexts lexeme.kind lexeme.contexts := by
  simp only [closeInterpolation] at found
  split_ifs at found with closes
  cases found
  simp only [Bool.and_eq_true, beq_iff_eq] at closes
  exact .returns closes.1

theorem keyword_plain (text : List Char) : ((keyword text).elim TokenKind.identifier .keyword).plain = true := by
  cases keyword text <;> rfl

theorem unicodeEscape_plain (text : List Char) : ((unicodeEscapeError text).elim TokenKind.doubleEscape .invalid).plain = true := by
  cases unicodeEscapeError text <;> rfl

theorem delimiterOf_rightBrace {byte : UInt8} (known : delimiterOf byte = some .rightBrace) : byte = '}'.toUInt8 := by
  by_contra other
  have apart : (byte == '}'.toUInt8) = false := beq_eq_false_iff_ne.mpr other
  unfold delimiterOf at known
  rw [apart] at known
  split_ifs at known <;> contradiction

section

variable (outside : view.contexts.head? ≠ some .doubleQuoted)
include outside

/-- A brace that the delimiter rule reads does not close the innermost interpolation. -/
theorem delimiter_moves (unclosed : closeInterpolation view tail = none) (found : delimiter view tail = some lexeme) : Moves view.contexts lexeme.kind lexeme.contexts := by
  cases tail with
  | nil => simp [delimiter] at found
  | cons c more =>
    simp only [delimiter] at found
    split_ifs at found with ascii
    obtain ⟨side, known, rfl⟩ := Option.map_eq_some_iff.mp found
    refine .nests side outside ?_
    rintro rfl innermost
    have same : c = '}' := by
      apply toUInt8_injective_of_ascii ascii rfl
      exact delimiterOf_rightBrace known
    simp only [closeInterpolation, innermost, same, beq_self_eq_true, Bool.true_and] at unclosed
    have begins : starts "\x7d" ('}' :: more) = true := starts_iff.mpr ⟨more, rfl⟩
    cases unclosed

theorem lateRules_moves (unclosed : closeInterpolation view tail = none) (listed : rule ∈ lateRules view)
    (found : rule tail = some lexeme) :
    Moves view.contexts lexeme.kind lexeme.contexts := by
  simp only [lateRules, mem_cons, not_mem_nil, or_false] at listed
  rcases listed with rfl | rfl | rfl | rfl
  · simp only [operator, Option.map_eq_some_iff] at found
    obtain ⟨_, _, rfl⟩ := found
    exact .stays rfl
  · exact delimiter_moves outside unclosed found
  · cases tail with
    | nil => simp [identifier] at found
    | cons =>
      simp only [identifier] at found
      split_ifs at found
      cases found
      exact .stays (keyword_plain _)
  · simp only [number] at found
    split_ifs at found
    split at found <;> cases found
    · exact .stays rfl
    · exact .stays rfl

theorem normal_moves :
    Moves view.contexts (normal view tail).kind (normal view tail).contexts := by
  have rules : normalRules view = earlyRules view ++ closeInterpolation view :: lateRules view := rfl
  unfold normal
  rw [rules, List.findSome?_append, List.findSome?_cons]
  cases early : (earlyRules view).findSome? (· tail) with
  | some =>
    obtain ⟨rule, listed, found⟩ := exists_of_findSome?_eq_some early
    exact earlyRules_moves outside listed found
  | none =>
    cases closes : closeInterpolation view tail with
    | some => exact closeInterpolation_moves closes
    | none =>
      cases late : (lateRules view).findSome? (· tail) with
      | some =>
        obtain ⟨_, listed, found⟩ := exists_of_findSome?_eq_some late
        exact lateRules_moves outside closes listed found
      | none => cases tail <;> exact .stays rfl

end

theorem doubleQuoted_moves (inside : view.contexts.head? = some .doubleQuoted) :
    Moves view.contexts (doubleQuoted view tail).kind (doubleQuoted view tail).contexts := by
  unfold doubleQuoted
  cases first : (doubleQuotedRules view).findSome? (· tail) with
  | none => exact .stays rfl
  | some =>
    obtain ⟨_, listed, found⟩ := exists_of_findSome?_eq_some first
    simp only [doubleQuotedRules, mem_cons, not_mem_nil, or_false] at listed
    rcases listed with rfl | rfl | rfl | rfl
    · simp only [doubleQuoteEnd] at found
      split_ifs at found
      cases found
      exact .closes inside
    · exact invalidSourceCharacter_moves found
    · simp only [doubleEscape] at found
      split_ifs at found <;> cases found
      · exact .stays rfl
      · exact .stays rfl
      · exact .stays (unicodeEscape_plain _)
      · exact .stays rfl
      · exact .stays rfl
    · simp only [doubleQuotedBrace] at found
      split_ifs at found <;> cases found
      · exact .stays rfl
      · exact .stays rfl
      · exact .interpolates inside
      · exact .stays rfl

/-- Every token moves the contexts as its kind says. -/
theorem next_moves (view : View) (tail : List Char) : Moves view.contexts (next view tail).kind (next view tail).contexts := by
  unfold next
  cases innermost : view.contexts.head? with
  | none => exact normal_moves (by rw [innermost]; nofun)
  | some context =>
    cases context with
    | normal | interpolation => exact normal_moves (by rw [innermost]; nofun)
    | doubleQuoted => exact doubleQuoted_moves innermost

end Scan

/-! ## What the frames stand for -/

section Frames

variable {source : SourceFile}

/-- The contexts inside a frame, from those around it. -/
def FrameKind.enter : FrameKind → List Context → List Context
  | .doubleQuote, contexts => .doubleQuoted :: contexts
  | .interpolation, contexts => .interpolation 0 :: contexts
  | .brace _ _, contexts => noteNested .leftBrace contexts
  | .parenthesis _, contexts | .bracket, contexts => contexts

def contextsOf : List (Frame source.Region) → List Context
  | [] => [.normal]
  | frame :: outer => frame.kind.enter (contextsOf outer)

/-- Interpolations open in strings, everything else outside of them. -/
def Shaped : List (Frame source.Region) → Prop
  | [] => True
  | frame :: outer => Shaped outer ∧ (frame.kind = .interpolation ↔ outer.head?.map (·.kind) = some .doubleQuote)

/-- The frames of the walk stand for the contexts of the lexer. -/
structure Agree (frames : List (Frame source.Region)) (contexts : List Context) : Prop where
  shaped : Shaped frames
  same : contextsOf frames = contexts

theorem noteNested_head (side : Delimiter) (contexts : List Context) :
    (noteNested side contexts).head? = some .doubleQuoted ↔ contexts.head? = some .doubleQuoted := by
  cases contexts with
  | nil => rfl
  | cons context =>
    cases context with
    | normal | doubleQuoted => rfl
    | interpolation =>
      cases side <;> simp only [noteNested, List.head?_cons] <;> first | (split_ifs <;> simp) | simp

variable {frames outer : List (Frame source.Region)} {contexts : List Context}

/-- A string is innermost in the contexts when it is in the frames. -/
theorem contextsOf_head (shaped : Shaped frames) :
    (contextsOf frames).head? = some .doubleQuoted ↔ frames.head?.map (·.kind) = some .doubleQuote := by
  induction frames with
  | nil => simp [contextsOf]
  | cons frame outer ih =>
    obtain ⟨shapedOuter, opened⟩ := shaped
    have around := ih shapedOuter
    obtain ⟨kind, _⟩ := frame
    rw [contextsOf, List.head?_cons, Option.map_some, Option.some.injEq]
    cases kind with
    | doubleQuote | interpolation => simp [FrameKind.enter]
    | parenthesis | bracket =>
      have apart : ¬outer.head?.map (·.kind) = some FrameKind.doubleQuote := fun inside => by cases opened.mpr inside
      simp [FrameKind.enter, around, apart]
    | brace =>
      have apart : ¬outer.head?.map (·.kind) = some FrameKind.doubleQuote := fun inside => by cases opened.mpr inside
      simp [FrameKind.enter, noteNested_head, around, apart]

theorem noteNested_returns :
    noteNested .rightBrace (noteNested .leftBrace contexts) = contexts := by
  cases contexts with
  | nil => rfl
  | cons context => cases context <;> simp [noteNested]

/-- No interpolation closes inside a brace. -/
theorem noteNested_open (contexts : List Context) :
    (noteNested .leftBrace contexts).head? ≠ some (.interpolation 0) := by
  cases contexts with
  | nil => simp [noteNested]
  | cons context => cases context <;> simp [noteNested]

/-- Opening a frame of a kind. -/
theorem Agree.enter (agree : Agree frames contexts) (kind : FrameKind) (span : source.Region)
    (fits : kind = .interpolation ↔ contexts.head? = some .doubleQuoted) :
    Agree (⟨kind, span⟩ :: frames) (kind.enter contexts) := by
  refine ⟨⟨agree.shaped, ?_⟩, ?_⟩
  · rw [fits, ← agree.same, contextsOf_head agree.shaped]
  · rw [contextsOf, agree.same]

/-- Closing the innermost frame. -/
theorem Agree.leave {frame : Frame source.Region} (agree : Agree (frame :: outer) contexts) : Agree outer (contextsOf outer) :=
  ⟨agree.shaped.1, rfl⟩

theorem popWhere_some {accepts : FrameKind → Bool} (popped : popWhere frames accepts = some outer) : ∃ frame, frames = frame :: outer ∧ accepts frame.kind = true := by
  cases frames with
  | nil => cases popped
  | cons frame =>
    unfold popWhere at popped
    dsimp only at popped
    split_ifs at popped with accepted
    cases popped
    exact ⟨frame, rfl, accepted⟩

/-- One delimiter on both sides. -/
theorem agree_delimiter {walk : Walk source} {token : PlacedToken source} {next : Option (PlacedToken source)}
    {side : Delimiter} (agree : Agree walk.frames contexts) (outside : contexts.head? ≠ some .doubleQuoted)
    (nested : side = .rightBrace → contexts.head? ≠ some (.interpolation 0))
    (accepted : classifyDelimiter walk token next side = some frames) : Agree frames (noteNested side contexts) := by
  have fits : ∀ kind : FrameKind, kind ≠ .interpolation → (kind = .interpolation ↔ contexts.head? = some .doubleQuoted) :=
    fun kind different => ⟨fun same => absurd same different, fun inside => absurd inside outside⟩
  have stays : ∀ other : Delimiter, other ≠ .leftBrace → other ≠ .rightBrace → noteNested other contexts = contexts := by
    intro other notLeft notRight
    unfold noteNested
    split
    · cases other <;> first | rfl | contradiction
    · rfl
  unfold classifyDelimiter at accepted
  cases side with
  | leftParenthesis =>
    cases accepted
    rw [stays _ (by simp) (by simp)]
    exact agree.enter (.parenthesis _) token.span (fits _ (by simp))
  | leftBracket =>
    cases accepted
    rw [stays _ (by simp) (by simp)]
    exact agree.enter .bracket token.span (fits _ (by simp))
  | leftBrace =>
    cases accepted
    exact agree.enter (.brace _ _) token.span (fits _ (by simp))
  | rightParenthesis =>
    obtain ⟨frame, split, kind⟩ := popWhere_some accepted
    rw [split] at agree
    rw [stays _ (by simp) (by simp), ← agree.same, contextsOf]
    cases shape : frame.kind <;> rw [shape] at kind <;> first | contradiction | exact agree.leave
  | rightBracket =>
    obtain ⟨frame, split, kind⟩ := popWhere_some accepted
    rw [split] at agree
    rw [stays _ (by simp) (by simp), ← agree.same, contextsOf, beq_iff_eq.mp kind]
    exact agree.leave
  | rightBrace =>
    obtain ⟨frame, split, kind⟩ := popWhere_some accepted
    rw [split] at agree
    have entered := agree.same
    rw [contextsOf] at entered
    cases shape : frame.kind with
    | interpolation =>
      rw [shape] at entered
      exact absurd (by rw [← entered]; rfl) (nested rfl)
    | brace =>
      rw [shape] at entered
      rw [← entered, FrameKind.enter, noteNested_returns]
      exact agree.leave
    | doubleQuote | bracket => rw [shape] at kind; contradiction
    | parenthesis call => rw [shape] at kind; contradiction

/-- The brace that closes the innermost interpolation closes its frame. -/
theorem agree_returns (agree : Agree frames contexts) (innermost : contexts.head? = some (.interpolation 0))
    (popped : popWhere frames closedByBrace = some outer) :
    frames.head?.map (·.kind) = some .interpolation ∧ Agree outer contexts.tail := by
  obtain ⟨frame, split, kind⟩ := popWhere_some popped
  rw [split] at agree
  have entered := agree.same
  rw [contextsOf] at entered
  cases shape : frame.kind with
  | interpolation =>
    rw [shape] at entered
    rw [split, ← entered]
    exact ⟨by rw [List.head?_cons, Option.map_some, shape], agree.leave⟩
  | brace =>
    rw [shape] at entered
    rw [← entered] at innermost
    exact absurd innermost (noteNested_open _)
  | doubleQuote | bracket => rw [shape] at kind; contradiction
  | parenthesis call => rw [shape] at kind; contradiction

end Frames

/-! ## The walk -/

section Walks

variable {source : SourceFile}

/-- The walk goes past tokens that settle nothing, with `rest` still ahead. -/
inductive Walks (rest : List (PlacedToken source)) : Walk source → List (PlacedToken source) → Walk source → Prop where
  | here (walk : Walk source) : Walks rest walk [] walk
  | past {walk last : Walk source} {token : PlacedToken source} {more : List (PlacedToken source)}
      {frames : List (Frame source.Region)} (classified : classifyToken walk token (more ++ rest).head? = .ok (.ok frames))
      (onward : Walks rest (walk.past token frames) more last) : Walks rest walk (token :: more) last

def Walk.start : Walk source := { frames := [], previousSignificant := none, passed := [] }

variable {next : Option (PlacedToken source)} {frames : List (Frame source.Region)} {token : PlacedToken source}

/-- A token that opens and closes nothing leaves the frames as they are. -/
theorem plain_frames {walk : Walk source} {kind : TokenKind} {span : source.Region} (plain : kind.plain = true)
    (classified : classifyToken walk ⟨kind, span⟩ next = .ok (.ok frames)) : frames = walk.frames := by
  by_cases quoted : kind = .singleQuoted
  · subst quoted
    simp only [classifyToken, bind, Except.bind] at classified
    split at classified
    · cases classified
    · split_ifs at classified
      · cases classified
      · cases classified
        rfl
  · cases kind <;> first | contradiction | (cases classified; rfl)

/-- The frames of a token that moves the contexts. -/
theorem agree_token {walk : Walk source} {contexts later : List Context} (agree : Agree walk.frames contexts)
    (moves : Moves contexts token.kind later) (classified : classifyToken walk token next = .ok (.ok frames)) :
    Agree frames later := by
  obtain ⟨kind, span⟩ := token
  cases moves with
  | opens outside =>
    cases classified
    exact agree.enter .doubleQuote span ⟨nofun, fun inside => absurd inside outside⟩
  | closes =>
    cases popped : popWhere walk.frames (· == .doubleQuote) with
    | none => simp [classifyToken, popped, pure, Except.pure] at classified
    | some =>
      simp only [classifyToken, popped, pure, Except.pure, Except.ok.injEq] at classified
      subst classified
      obtain ⟨_, split, kind⟩ := popWhere_some popped
      rw [split] at agree
      rw [← agree.same, contextsOf, beq_iff_eq.mp kind]
      exact agree.leave
  | interpolates inside =>
    cases classified
    exact agree.enter .interpolation span ⟨fun _ => inside, fun _ => rfl⟩
  | returns innermost =>
    cases popped : popWhere walk.frames closedByBrace with
    | none => simp [classifyToken, classifyDelimiter, popped, pure, Except.pure] at classified
    | some =>
      simp only [classifyToken, classifyDelimiter, popped, pure, Except.pure, Except.ok.injEq] at classified
      subst classified
      exact (agree_returns agree innermost popped).2
  | nests side outside nested =>
    cases accepted : classifyDelimiter walk ⟨.delimiter side, span⟩ next side with
    | none => simp [classifyToken, accepted, pure, Except.pure] at classified
    | some =>
      simp only [classifyToken, accepted, pure, Except.pure, Except.ok.injEq] at classified
      subst classified
      exact agree_delimiter agree outside nested accepted
  | stays plain =>
    rw [plain_frames plain classified]
    exact agree

/-- The turn of the lexer that read a token behind others. -/
structure Produced (source : SourceFile) (earlier : List Token) (token : Token) (lexer later : Lexer) : Prop where
  reached : Lexer.Reachable source lexer
  behind : lexer.tokens.reverse = earlier
  stepped : (Lexer.step source).run lexer = some ((), later)
  newest : later.tokens = token :: lexer.tokens

/-- The turn that reads the first of the tokens ahead. -/
theorem turn_produces {lexer : Lexer} {front tail : List Char} {bound : Nat} {first : PlacedToken source}
    {more : List (PlacedToken source)} (reached : Lexer.Reachable source lexer) (cursor : Lexer.At source lexer front tail)
    (enough : tail.length < bound)
    (ahead : (first :: more).map PlacedToken.bare =
      Scan.place source.id lexer.position (Scan.lexemes bound (lexer.reader front) tail)) :
    ∃ later front' tail' bound', Produced source lexer.tokens.reverse first.bare lexer later ∧
      Moves lexer.contexts first.kind later.contexts ∧ Lexer.At source later front' tail' ∧ tail'.length < bound' ∧
      more.map PlacedToken.bare = Scan.place source.id later.position (Scan.lexemes bound' (later.reader front') tail') := by
  obtain ⟨less, rfl⟩ : ∃ less, bound = less + 1 := ⟨bound - 1, by omega⟩
  by_cases ended : tail = []
  · simp [Scan.lexemes, ended, Scan.place] at ahead
  · have takes := Scan.next_takes (lexer.reader front).view ended
    have moves := Scan.next_moves (lexer.reader front).view tail
    have turn := step_run cursor ended
    rw [Lexer.view_eq_reader cursor] at turn
    have after := cursor.emit takes
    have long := length_pos_of_ne_nil takes.nonempty
    have nonempty := length_pos_of_ne_nil ended
    simp only [Scan.lexemes, List.isEmpty_iff, ended, if_false, Scan.place, List.map_cons, List.cons.injEq] at ahead
    obtain ⟨here, rest⟩ := ahead
    have kind : first.kind = (Scan.next (lexer.reader front).view tail).kind := congrArg Token.kind here
    refine ⟨_, _, _, less, ⟨reached, rfl, turn, ?_⟩, ?_, after, ?_, ?_⟩
    · rw [here]
      rfl
    · rw [kind]
      exact moves
    · rw [length_drop]
      omega
    · exact rest

/-- A run of the lexer and a walk over its tokens, side by side. -/
theorem run_agrees {lexer : Lexer} {front tail : List Char} {bound : Nat} {before after : List (PlacedToken source)}
    (reached : Lexer.Reachable source lexer) (cursor : Lexer.At source lexer front tail) (enough : tail.length < bound)
    (ahead : (before ++ token :: after).map PlacedToken.bare = Scan.place source.id lexer.position (Scan.lexemes bound (lexer.reader front) tail)) :
    ∃ lexer' later, Produced source (lexer.tokens.reverse ++ before.map PlacedToken.bare) token.bare lexer' later ∧
      Moves lexer'.contexts token.kind later.contexts ∧
      ∀ walk last, Agree walk.frames lexer.contexts → Walks (token :: after) walk before last → Agree last.frames lexer'.contexts := by
  induction before generalizing lexer front tail bound with
  | nil =>
    obtain ⟨later, _, _, _, produced, moves, _⟩ := turn_produces reached cursor enough ahead
    refine ⟨lexer, later, by rw [map_nil, append_nil]; exact produced, moves, ?_⟩
    intro walk last agree walks
    cases walks
    exact agree
  | cons first before ih =>
    obtain ⟨later, front', tail', bound', produced, moves, onward, enough', rest⟩ := turn_produces reached cursor enough ahead
    have inside : lexer.position < source.len := by
      rw [cursor.lt_len_iff]
      rintro rfl
      obtain ⟨less, rfl⟩ : ∃ less, bound = less + 1 := ⟨bound - 1, by omega⟩
      simp [Scan.lexemes, Scan.place] at ahead
    obtain ⟨lexer', last', produced', moves', agrees⟩ := ih (.turn reached inside produced.stepped) onward enough' rest
    refine ⟨lexer', last', ?_, moves', ?_⟩
    · rw [produced.newest, reverse_cons, append_assoc, singleton_append] at produced'
      exact produced'
    · intro walk last agree walks
      cases walks with
      | past classified walks => exact agrees _ _ (agree_token agree moves classified) walks

end Walks

/-! ## Agreement -/

/-- What both sides nest. -/
inductive Quoting where
  | doubleQuote
  | interpolation
  deriving DecidableEq

def FrameKind.quoting : FrameKind → Option Quoting
  | .doubleQuote => some .doubleQuote
  | .interpolation => some .interpolation
  | _ => none

def Context.quoting : Context → Option Quoting
  | .normal => none
  | .doubleQuoted => some .doubleQuote
  | .interpolation _ => some .interpolation

section Agreement

variable {source : SourceFile}

/-- The strings and interpolations open in the frames are those the lexer is in, in the same order. -/
def InStep (frames : List (Frame source.Region)) (contexts : List Context) : Prop :=
  frames.filterMap (·.kind.quoting) = contexts.filterMap Context.quoting

theorem noteNested_quoting (side : Delimiter) (contexts : List Context) :
    (noteNested side contexts).filterMap Context.quoting = contexts.filterMap Context.quoting := by
  cases contexts with
  | nil => rfl
  | cons context =>
    cases context with
    | normal | doubleQuoted => rfl
    | interpolation => cases side <;> simp only [noteNested] <;> first | rfl | (split_ifs <;> rfl)

theorem contextsOf_quoting (frames : List (Frame source.Region)) :
    frames.filterMap (·.kind.quoting) = (contextsOf frames).filterMap Context.quoting := by
  induction frames with
  | nil => rfl
  | cons frame _ ih =>
    obtain ⟨kind, _⟩ := frame
    cases kind with
    | doubleQuote => exact congrArg (Quoting.doubleQuote :: ·) ih
    | interpolation => exact congrArg (Quoting.interpolation :: ·) ih
    | parenthesis | bracket => exact ih
    | brace => exact ih.trans (noteNested_quoting .leftBrace _).symm

variable {frames : List (Frame source.Region)} {contexts : List Context} {token : PlacedToken source}
  {lexer later : Lexer}

theorem Agree.inStep (agree : Agree frames contexts) :
    InStep frames contexts := by
  unfold InStep
  rw [contextsOf_quoting, agree.same]

/-- The lexer leaves an interpolation. -/
def Pops (lexer later : Lexer) : Prop := ∃ nested, lexer.contexts = .interpolation nested :: later.contexts

/-- The innermost frame is an interpolation. -/
def Innermost (frames : List (Frame source.Region)) : Prop := frames.head?.map (·.kind) = some .interpolation

/-- The classifier takes a brace for the one that closes an interpolation. -/
def ClosesInterpolation (walk : Walk source) (token : PlacedToken source) (next : Option (PlacedToken source)) : Prop :=
  Innermost walk.frames ∧ ∃ frames, classifyToken walk token next = .ok (.ok frames)

/-- The classifier ends its walk at a closer that matches nothing. -/
def RefusesCloser (walk : Walk source) (token : PlacedToken source) (next : Option (PlacedToken source)) : Prop :=
  classifyToken walk token next = .ok (.error (unexpectedCloser token.span)) ∧
    ∀ frame ∈ walk.frames.head?, closedByBrace frame.kind = false

theorem popWhere_none {accepts : FrameKind → Bool} (kept : popWhere frames accepts = none) :
    ∀ frame ∈ frames.head?, accepts frame.kind = false := by
  intro frame member
  cases frames with
  | nil => cases member
  | cons =>
    cases member
    unfold popWhere at kept
    dsimp only at kept
    split_ifs at kept with accepted
    exact Bool.not_eq_true _ ▸ accepted

theorem noteNested_length (side : Delimiter) (contexts : List Context) :
    (noteNested side contexts).length = contexts.length := by
  cases contexts with
  | nil => rfl
  | cons context =>
    cases context with
    | normal | doubleQuoted => rfl
    | interpolation => cases side <;> simp only [noteNested] <;> first | rfl | (split_ifs <;> rfl)

/-- A brace that closes a frame closes that of an interpolation when the lexer leaves one. -/
theorem innermost_iff {outer : List (Frame source.Region)} {after : List Context} (agree : Agree frames contexts)
    (moves : Moves contexts (.delimiter .rightBrace) after) (popped : popWhere frames closedByBrace = some outer) :
    Innermost frames ↔ ∃ nested, contexts = .interpolation nested :: after := by
  cases moves with
  | returns innermost =>
    have closes := (agree_returns agree innermost popped).1
    obtain ⟨rest, split⟩ := List.head?_eq_some_iff.mp innermost
    exact ⟨fun _ => ⟨0, by rw [split]; rfl⟩, fun _ => closes⟩
  | nests _ outside nested =>
    constructor
    · intro innermost
      obtain ⟨frame, split, _⟩ := popWhere_some popped
      rw [Innermost, split, List.head?_cons, Option.map_some, Option.some.injEq] at innermost
      have entered := agree.same
      rw [split, contextsOf, innermost] at entered
      exact absurd (by rw [← entered]; rfl) (nested rfl)
    · rintro ⟨count, split⟩
      have sizes := congrArg List.length split
      rw [length_cons, noteNested_length] at sizes
      omega
  | stays plain => cases plain

/-- A right brace closes an interpolation on both sides or on neither, unless the classifier refuses it. -/
theorem agree_closer {walk : Walk source} {next : Option (PlacedToken source)} (agree : Agree walk.frames lexer.contexts)
    (moves : Moves lexer.contexts token.kind later.contexts) (brace : token.kind = .delimiter .rightBrace) :
    RefusesCloser walk token next ∨ (ClosesInterpolation walk token next ↔ Pops lexer later) := by
  obtain ⟨_, span⟩ := token
  subst brace
  cases popped : popWhere walk.frames closedByBrace with
  | none =>
    left
    exact ⟨by simp [classifyToken, classifyDelimiter, popped, pure, Except.pure], popWhere_none popped⟩
  | some outer =>
    right
    have accepted : classifyToken walk ⟨.delimiter .rightBrace, span⟩ next = .ok (.ok outer) := by
      simp [classifyToken, classifyDelimiter, popped, pure, Except.pure]
    have closes := innermost_iff agree moves popped
    exact ⟨fun closed => closes.mp closed.1, fun pops => ⟨closes.mpr pops, outer, accepted⟩⟩

/-! ### Which turn read a token -/

theorem turn_tokens (reached : Lexer.Reachable source lexer) (inside : lexer.position < source.len)
    (stepped : (Lexer.step source).run lexer = some ((), later)) : ∃ token, later.tokens = token :: lexer.tokens := by
  obtain ⟨_, _, cursor⟩ := (Lexer.reachable_inv reached).cursor
  rw [step_run cursor (cursor.lt_len_iff.mp inside)] at stepped
  cases stepped
  exact ⟨_, rfl⟩

/-- The lexer reaches one state with the tokens it has read. -/
theorem reachable_unique {other : Lexer} (reached : Lexer.Reachable source lexer) (reached' : Lexer.Reachable source other)
    (same : lexer.tokens = other.tokens) : lexer = other := by
  induction reached generalizing other with
  | new =>
    cases reached' with
    | new => rfl
    | turn before inside stepped =>
      obtain ⟨token, newest⟩ := turn_tokens before inside stepped
      rw [newest] at same
      cases same
  | turn before inside stepped ih =>
    obtain ⟨_, newest⟩ := turn_tokens before inside stepped
    cases reached' with
    | new =>
      rw [newest] at same
      cases same
    | turn before' inside' stepped' =>
      obtain ⟨_, newest'⟩ := turn_tokens before' inside' stepped'
      rw [newest, newest', List.cons.injEq] at same
      cases ih before' same.2
      rw [stepped] at stepped'
      cases stepped'
      rfl

theorem Produced.unique {earlier : List Token} {token : Token} {lexer' later' : Lexer}
    (produced : Produced source earlier token lexer later) (produced' : Produced source earlier token lexer' later') :
    lexer = lexer' ∧ later = later' := by
  have same := reachable_unique produced.reached produced'.reached
    (reverse_injective (produced.behind.trans produced'.behind.symm))
  subst same
  have stepped := produced.stepped
  rw [produced'.stepped] at stepped
  cases stepped
  exact ⟨rfl, rfl⟩

theorem agree_start : Agree (@Walk.start source).frames Lexer.new.contexts := ⟨trivial, rfl⟩

/-- Every token of the lexer was read in one turn, and the walk agrees there. -/
theorem token_agrees {before after : List (PlacedToken source)}
    (lexed : lexOpaal source = some ((before ++ token :: after).map PlacedToken.bare)) :
    ∃ lexer later, Produced source (before.map PlacedToken.bare) token.bare lexer later ∧
      Moves lexer.contexts token.kind later.contexts ∧
      ∀ walk, Walks (token :: after) Walk.start before walk → Agree walk.frames lexer.contexts := by
  have cursor : Lexer.At source Lexer.new [] source.text := ⟨rfl, rfl⟩
  have enough := Nat.lt_succ_of_le (length_le_width source.text)
  rw [lexOpaal_eq_place, Option.some.injEq] at lexed
  obtain ⟨lexer, later, produced, moves, agrees⟩ := run_agrees .new cursor enough lexed.symm
  refine ⟨lexer, later, produced, moves, ?_⟩
  intro walk walks
  exact agrees _ walk agree_start walks

/-- While the classifier walks the tokens of the lexer, both nest strings and interpolations alike. -/
theorem classifier_in_step (source : SourceFile) :
    (∃ tokens : List (PlacedToken source), lexOpaal source = some (tokens.map PlacedToken.bare)) ∧
    ∀ (before after : List (PlacedToken source)) (token : PlacedToken source),
      lexOpaal source = some ((before ++ token :: after).map PlacedToken.bare) →
      (∃ lexer later, Produced source (before.map PlacedToken.bare) token.bare lexer later) ∧
      ∀ lexer later walk, Produced source (before.map PlacedToken.bare) token.bare lexer later →
        Walks (token :: after) Walk.start before walk → InStep walk.frames lexer.contexts ∧
          (token.kind = .delimiter .rightBrace →
            RefusesCloser walk token after.head? ∨ (ClosesInterpolation walk token after.head? ↔ Pops lexer later)) := by
  constructor
  · obtain ⟨⟨_, lexed, tiles, _⟩, _⟩ := lexOpaal_lossless source
    obtain ⟨placed, _, bare⟩ := placed_of_tiles tiles
    exact ⟨placed, by rw [bare, lexed]⟩
  · intro before after token lexed
    obtain ⟨lexer, later, produced, moves, agrees⟩ := token_agrees lexed
    refine ⟨⟨lexer, later, produced⟩, ?_⟩
    intro lexer' later' walk produced' walks
    obtain ⟨rfl, rfl⟩ := produced.unique produced'
    have agree := agrees walk walks
    exact ⟨agree.inStep, agree_closer agree moves⟩

end Agreement

/-! ### A parenthesis inside an interpolation -/

def openParenthesis : SourceFile := ⟨0, ['"', '{', '(', '}', '"']⟩

theorem openParenthesis_kinds : (lexOpaal openParenthesis).map (·.map (·.kind)) =
    some [.doubleQuoteStart, .interpolationStart, .delimiter .leftParenthesis, .delimiter .rightBrace, .doubleQuoteEnd] := by
  decide

/-- The lexer leaves the interpolation at the brace, and the classifier refuses the brace. -/
theorem closers_differ_in_parentheses : ¬∀ (source : SourceFile) (before after : List (PlacedToken source))
    (token : PlacedToken source) (lexer later : Lexer) (walk : Walk source),
      lexOpaal source = some ((before ++ token :: after).map PlacedToken.bare) →
      Produced source (before.map PlacedToken.bare) token.bare lexer later →
      Walks (token :: after) Walk.start before walk → token.kind = .delimiter .rightBrace →
      (ClosesInterpolation walk token after.head? ↔ Pops lexer later) := by
  intro together
  obtain ⟨⟨_, lexed, tiles, _⟩, _⟩ := lexOpaal_lossless openParenthesis
  obtain ⟨placed, _, bare⟩ := placed_of_tiles tiles
  have kinds := openParenthesis_kinds
  rw [lexed, Option.map_some, ← bare, Option.some.injEq, map_map] at kinds
  obtain ⟨string, interpolation, parenthesis, brace, ending, rfl⟩ : ∃ a b c d e, placed = [a, b, c, d, e] := by
    have size := congrArg List.length kinds
    match placed, size with
    | [a, b, c, d, e], _ => exact ⟨a, b, c, d, e, rfl⟩
  simp only [List.map_cons, map_nil, List.cons.injEq, Function.comp_apply, PlacedToken.bare, and_true] at kinds
  obtain ⟨isString, isInterpolation, isParenthesis, isBrace, _⟩ := kinds
  have listed : lexOpaal openParenthesis =
      some (([string, interpolation, parenthesis] ++ brace :: [ending]).map PlacedToken.bare) := by
    rw [lexed, ← bare]
    rfl
  obtain ⟨lexer, later, produced, moves, agrees⟩ := token_agrees listed
  have first : ∀ walk next, classifyToken walk string next = .ok (.ok (⟨.doubleQuote, string.span⟩ :: walk.frames)) := by
    intro walk next
    unfold classifyToken
    rw [isString]
    rfl
  have second : ∀ walk next,
      classifyToken walk interpolation next = .ok (.ok (⟨.interpolation, interpolation.span⟩ :: walk.frames)) := by
    intro walk next
    unfold classifyToken
    rw [isInterpolation]
    rfl
  have third : ∀ walk next, ∃ call,
      classifyToken walk parenthesis next = .ok (.ok (⟨.parenthesis call, parenthesis.span⟩ :: walk.frames)) := by
    intro walk next
    unfold classifyToken
    rw [isParenthesis]
    exact ⟨_, rfl⟩
  obtain ⟨_, opened⟩ := third ((Walk.start.past string _).past interpolation _) (some brace)
  have walks : Walks (brace :: [ending]) Walk.start [string, interpolation, parenthesis] _ :=
    .past (first _ _) (.past (second _ _) (.past opened (.here _)))
  have agree := agrees _ walks
  have pops : Pops lexer later := by
    have contexts : lexer.contexts = [.interpolation 0, .doubleQuoted, .normal] := agree.same.symm
    rw [isBrace, contexts] at moves
    unfold Pops
    generalize later.contexts = after at moves ⊢
    rw [contexts]
    cases moves with
    | returns => exact ⟨0, rfl⟩
    | nests _ _ nested => exact absurd rfl (nested rfl)
    | stays plain => cases plain
  have closes := (together openParenthesis _ _ _ _ _ _ listed produced walks isBrace).mpr pops
  cases closes.1

end Opaal.Syntax
