import Opaal.Syntax.LexerRefinement

/-!
# The lexer is lossless

A run of the lexer ends for every source, its tokens tile the source, and the
contexts keep their shape in every state on the way.
-/

namespace Opaal.Syntax

open Opaal.Text List

/-! ## A whole run as a list of lexemes -/

namespace Scan

/-- Where the lexer is: the text behind it, the contexts and the last kind. -/
structure Reader where
  front : List Char
  contexts : List Context
  last : Option TokenKind
  deriving DecidableEq, Repr

def Reader.view (reader : Reader) : View where
  contexts := reader.contexts
  start := reader.front.isEmpty
  after := reader.last.any endsTokenBoundary
  lineBlank := (reader.front.reverse.takeWhile (· != '\n')).all (onAscii isBlank)

def Reader.new : Reader := { front := [], contexts := [.normal], last := none }

def Reader.past (reader : Reader) (lexeme : Lexeme) : Reader where
  front := reader.front ++ lexeme.text
  contexts := lexeme.contexts
  last := some lexeme.kind

/-- The lexemes of the text that is left.  The bound is on their number. -/
def lexemes : Nat → Reader → List Char → List Lexeme
  | 0, _, _ => []
  | bound + 1, reader, tail =>
    if tail.isEmpty then []
    else
      let lexeme := next reader.view tail
      lexeme :: lexemes bound (reader.past lexeme) (tail.drop lexeme.text.length)

/-- Lexemes laid end to end as tokens, from an offset on. -/
def place (id : SourceId) : Nat → List Lexeme → List Token
  | _, [] => []
  | start, lexeme :: more =>
    ⟨lexeme.kind, ⟨id, start, start + width lexeme.text⟩⟩ :: place id (start + width lexeme.text) more

/-- The text is what its lexemes spell, and no lexeme is empty. -/
theorem lexemes_spell {bound : Nat} (reader : Reader) {tail : List Char} (enough : tail.length < bound) :
    (lexemes bound reader tail).flatMap (·.text) = tail ∧ ∀ lexeme ∈ lexemes bound reader tail, lexeme.text ≠ [] := by
  induction bound generalizing reader tail with
  | zero => omega
  | succ bound ih =>
    by_cases ended : tail = []
    · simp [lexemes, ended]
    · have takes := next_takes reader.view ended
      have long := length_pos_of_ne_nil takes.nonempty
      obtain ⟨more, split⟩ := takes.leads
      have dropped : tail.drop (next reader.view tail).text.length = more := by
        have cut : ((next reader.view tail).text ++ more).drop (next reader.view tail).text.length = more :=
          drop_left
        rwa [split] at cut
      have shorter : more.length < bound := by
        have total := congrArg List.length split
        simp only [length_append] at total
        omega
      have rest := ih (reader.past (next reader.view tail)) shorter
      rw [← dropped] at rest
      simp only [lexemes, List.isEmpty_iff, ended, if_false, List.flatMap_cons, List.forall_mem_cons]
      refine ⟨?_, takes.nonempty, rest.2⟩
      rw [rest.1, dropped, split]

end Scan

namespace Lexer

variable {source : SourceFile} {lexer : Lexer} {front tail : List Char}

def reader (lexer : Lexer) (front : List Char) : Scan.Reader where
  front := front
  contexts := lexer.contexts
  last := lexer.tokens.head?.map (·.kind)

theorem view_eq_reader (cursor : At source lexer front tail) : lexer.view front = (lexer.reader front).view := by
  have start : (lexer.position == 0) = front.isEmpty := by
    rw [cursor.position, Bool.eq_iff_iff, beq_iff_eq, width_eq_zero, List.isEmpty_iff]
  unfold view Scan.Reader.view reader
  rw [start]
  cases lexer.tokens <;> simp

theorem reader_emit (lexer : Lexer) (front : List Char) (lexeme : Lexeme) :
    (emit source lexer lexeme).reader (front ++ lexeme.text) = (lexer.reader front).past lexeme := rfl

/-- A run appends the lexemes of the text that is left. -/
theorem run_run {bound : Nat} (cursor : At source lexer front tail) (enough : tail.length < bound) :
    ∃ final, (run source bound).run lexer = some ((), final) ∧
      final.tokens.reverse =
        lexer.tokens.reverse ++ Scan.place source.id lexer.position (Scan.lexemes bound (lexer.reader front) tail) := by
  induction bound generalizing lexer front tail with
  | zero => omega
  | succ bound ih =>
    by_cases ended : tail = []
    · have stopped : ¬ lexer.position < source.len := by
        rw [cursor.lt_len_iff]
        exact not_not.mpr ended
      exact ⟨lexer, by simp [run, here_run, stopped], by simp [Scan.lexemes, ended, Scan.place]⟩
    · have inside := cursor.lt_len_iff.mpr ended
      have takes := Scan.next_takes (lexer.reader front).view ended
      have turn := step_run cursor ended
      rw [view_eq_reader cursor] at turn
      have after := cursor.emit takes
      have long := length_pos_of_ne_nil takes.nonempty
      have nonempty := length_pos_of_ne_nil ended
      obtain ⟨final, ran, tokens⟩ := ih after (by simp only [length_drop]; omega)
      refine ⟨final, ?_, ?_⟩
      · simp only [run, StateT.run_bind, here_run, Option.bind_eq_bind, Option.bind_some, inside, if_true, turn]
        exact ran
      · rw [tokens, reader_emit]
        simp [Scan.lexemes, ended, emit, Scan.place]

end Lexer

theorem lexOpaal_eq_place (source : SourceFile) :
    lexOpaal source =
      some (Scan.place source.id 0 (Scan.lexemes (source.len + 1) Scan.Reader.new source.text)) := by
  have cursor : Lexer.At source Lexer.new [] source.text := ⟨rfl, rfl⟩
  obtain ⟨final, ran, tokens⟩ := Lexer.run_run cursor (Nat.lt_succ_of_le (length_le_width source.text))
  have result : Lexer.run source (Lexer.loopBound source) Lexer.new = some ((), final) := ran
  simp only [lexOpaal, result, Option.map_some, tokens]
  rfl

/-! ## Tiling -/

/-- Nonempty spans of one source, each starting where the one before it stops. -/
def Tiles (source : SourceFile) : Nat → List Token → Nat → Prop
  | start, [], stop => start = stop
  | start, token :: more, stop =>
    token.span.start = start ∧ start < token.span.stop ∧ source.Covers token.span ∧
      Tiles source token.span.stop more stop

theorem place_tiles {source : SourceFile} (front : List Char) {lexemes : List Lexeme}
    (spelled : source.text = front ++ lexemes.flatMap (·.text)) (nonempty : ∀ lexeme ∈ lexemes, lexeme.text ≠ []) :
    Tiles source (width front) (Scan.place source.id (width front) lexemes) source.len := by
  induction lexemes generalizing front with
  | nil => simp [Scan.place, Tiles, SourceFile.len, spelled]
  | cons lexeme more ih =>
    simp only [List.flatMap_cons, ← append_assoc] at spelled
    simp only [List.forall_mem_cons] at nonempty
    have positive := width_pos_of_ne_nil nonempty.1
    have rest := ih (front ++ lexeme.text) spelled nonempty.2
    rw [width_append] at rest
    have startBoundary : IsBoundary source.text (width front) := by
      rw [spelled, append_assoc]
      exact isBoundary_width_append _ _
    have stopBoundary : IsBoundary source.text (width front + width lexeme.text) := by
      rw [spelled, ← width_append]
      exact isBoundary_width_append _ _
    refine ⟨rfl, ?_, SourceFile.covers_mk (Nat.le_add_right _ _) startBoundary stopBoundary, rest⟩
    simp only
    omega

/-- The text under a placed lexeme is the lexeme's text. -/
theorem place_texts {source : SourceFile} (front : List Char) {lexemes : List Lexeme}
    (spelled : source.text = front ++ lexemes.flatMap (·.text)) :
    (Scan.place source.id (width front) lexemes).map (·.text source) = lexemes.map (fun lexeme => .ok lexeme.text) := by
  induction lexemes generalizing front with
  | nil => rfl
  | cons lexeme _ ih =>
    simp only [List.flatMap_cons, ← append_assoc] at spelled
    have rest := ih (front ++ lexeme.text) spelled
    rw [width_append] at rest
    have head := SourceFile.slice_append front lexeme.text _ spelled
    rw [Scan.place, map_cons, rest, map_cons, Token.text, head]

/-! ## Contexts -/

/-- Innermost first: the root `normal` at the bottom, strings and interpolations
strictly alternating above it, beginning with a string. -/
def Alternating : List Context → Prop
  | [.normal] => True
  | [.doubleQuoted, .normal] => True
  | .doubleQuoted :: .interpolation nested :: outer => Alternating (.interpolation nested :: outer)
  | .interpolation _ :: .doubleQuoted :: outer => Alternating (.doubleQuoted :: outer)
  | _ => False

/-- A string starts outside strings. -/
theorem Alternating.opens : ∀ {contexts : List Context}, Alternating contexts →
    contexts.head?.getD .normal ≠ .doubleQuoted → Alternating (.doubleQuoted :: contexts)
  | [.normal], _, _ => by simp [Alternating]
  | .interpolation _ :: .doubleQuoted :: _, shaped, _ => by simpa [Alternating] using shaped

/-- An interpolation starts inside a string. -/
theorem Alternating.interpolates : ∀ {contexts : List Context}, Alternating contexts →
    contexts.head?.getD .normal = .doubleQuoted → Alternating (.interpolation 0 :: contexts)
  | [.doubleQuoted, .normal], _, _ => by simp [Alternating]
  | .doubleQuoted :: .interpolation _ :: _, shaped, _ => by simpa [Alternating] using shaped

theorem Alternating.closes : ∀ {contexts : List Context}, Alternating contexts →
    contexts.head?.getD .normal ≠ .normal → Alternating contexts.tail
  | [.doubleQuoted, .normal], _, _ => by simp [Alternating]
  | .doubleQuoted :: .interpolation _ :: _, shaped, _ => by simpa [Alternating] using shaped
  | .interpolation _ :: .doubleQuoted :: _, shaped, _ => by simpa [Alternating] using shaped

namespace Scan

variable {view : View} {tail : List Char} {lexeme : Lexeme}

theorem noteNested_alternating {contexts : List Context} (side : Delimiter) (shaped : Alternating contexts) :
    Alternating (Lexer.noteNested side contexts) := by
  match contexts, shaped with
  | [.normal], shaped => exact shaped
  | [.doubleQuoted, .normal], shaped => exact shaped
  | .doubleQuoted :: .interpolation nested :: outer, shaped => exact shaped
  | .interpolation nested :: .doubleQuoted :: outer, shaped =>
    have outside : Alternating (.doubleQuoted :: outer) := by simpa [Alternating] using shaped
    cases side
    all_goals simp [Lexer.noteNested]
    all_goals first | (split <;> simpa [Alternating] using outside) | simpa [Alternating] using outside

/-- What a rule outside strings does to the contexts. -/
theorem normalRules_contexts {rule : List Char → Option Lexeme} (listed : rule ∈ normalRules view)
    (found : rule tail = some lexeme) :
    lexeme.contexts = view.contexts ∨ lexeme.contexts = .doubleQuoted :: view.contexts ∨
      (view.contexts.head? = some (.interpolation 0) ∧ lexeme.contexts = view.contexts.tail) ∨
      ∃ side, lexeme.contexts = Lexer.noteNested side view.contexts := by
  simp only [normalRules, mem_cons, not_mem_nil, or_false] at listed
  rcases listed with rfl | rfl | rfl | rfl | rfl | rfl | rfl | rfl | rfl | rfl | rfl | rfl | rfl
  case inr.inr.inr.inr.inr.inr.inl =>
    simp only [doubleQuoteStart] at found
    split_ifs at found
    cases found
    exact .inr (.inl rfl)
  case inr.inr.inr.inr.inr.inr.inr.inr.inl =>
    simp only [closeInterpolation] at found
    split_ifs at found with closes
    cases found
    simp only [Bool.and_eq_true, beq_iff_eq] at closes
    exact .inr (.inr (.inl ⟨closes.1, rfl⟩))
  case inr.inr.inr.inr.inr.inr.inr.inr.inr.inr.inl =>
    cases tail with
    | nil => simp [delimiter] at found
    | cons =>
      simp only [delimiter] at found
      split_ifs at found
      obtain ⟨side, _, rfl⟩ := Option.map_eq_some_iff.mp found
      exact .inr (.inr (.inr ⟨side, rfl⟩))
  all_goals left
  · simp only [invalidSourceCharacter] at found
    split_ifs at found <;> cases found <;> rfl
  · simp only [horizontalTrivia] at found
    split_ifs at found
    cases found
    rfl
  · simp only [newline] at found
    split_ifs at found <;> cases found <;> rfl
  · simp only [bareEscape] at found
    split_ifs at found <;> cases found <;> rfl
  · simp only [comment] at found
    split_ifs at found <;> cases found <;> rfl
  · simp only [singleQuoted] at found
    split_ifs at found
    cases found
    rfl
  · simp only [removedDollarSyntax] at found
    split_ifs at found
    cases found
    rfl
  · simp only [operator, Option.map_eq_some_iff] at found
    obtain ⟨_, _, rfl⟩ := found
    rfl
  · cases tail with
    | nil => simp [identifier] at found
    | cons =>
      simp only [identifier] at found
      split_ifs at found
      cases found
      rfl
  · simp only [number] at found
    split_ifs at found
    split at found <;> cases found <;> rfl

theorem normal_alternating (shaped : Alternating view.contexts)
    (outside : view.contexts.head?.getD .normal ≠ .doubleQuoted) : Alternating (normal view tail).contexts := by
  simp only [normal]
  cases found : (normalRules view).findSome? (· tail) with
  | none => cases tail <;> exact shaped
  | some =>
    obtain ⟨_, listed, spelled⟩ := exists_of_findSome?_eq_some found
    simp only [Option.getD_some]
    rcases normalRules_contexts listed spelled with same | opened | ⟨innermost, closed⟩ | ⟨side, noted⟩
    · rw [same]
      exact shaped
    · rw [opened]
      exact shaped.opens outside
    · rw [closed]
      exact shaped.closes (by simp [innermost])
    · rw [noted]
      exact noteNested_alternating side shaped

theorem doubleQuoted_alternating (shaped : Alternating view.contexts)
    (inside : view.contexts.head?.getD .normal = .doubleQuoted) :
    Alternating (doubleQuoted view tail).contexts := by
  simp only [doubleQuoted]
  cases found : (doubleQuotedRules view).findSome? (· tail) with
  | none => exact shaped
  | some =>
    obtain ⟨_, listed, spelled⟩ := exists_of_findSome?_eq_some found
    simp only [doubleQuotedRules, mem_cons, not_mem_nil, or_false] at listed
    rcases listed with rfl | rfl | rfl | rfl
    · simp only [doubleQuoteEnd] at spelled
      split_ifs at spelled
      cases spelled
      exact shaped.closes (by simp [inside])
    · simp only [invalidSourceCharacter] at spelled
      split_ifs at spelled <;> cases spelled <;> exact shaped
    · simp only [doubleEscape] at spelled
      split_ifs at spelled <;> cases spelled <;> exact shaped
    · simp only [doubleQuotedBrace] at spelled
      split_ifs at spelled <;> cases spelled
      · exact shaped
      · exact shaped
      · exact shaped.interpolates inside
      · exact shaped

/-- Every token keeps the contexts' shape. -/
theorem next_alternating (shaped : Alternating view.contexts) (tail : List Char) :
    Alternating (next view tail).contexts := by
  simp only [next]
  split
  · next inside => exact doubleQuoted_alternating shaped inside
  · next outside => exact normal_alternating shaped (by simp [outside])
  · next nested outside => exact normal_alternating shaped (by simp [outside])

end Scan

namespace Lexer

variable {source : SourceFile} {lexer : Lexer}

/-- The states the run loop passes through. -/
inductive Reachable (source : SourceFile) : Lexer → Prop
  | new : Reachable source Lexer.new
  | turn {lexer later : Lexer} (reached : Reachable source lexer) (inside : lexer.position < source.len)
      (stepped : (step source).run lexer = some ((), later)) : Reachable source later

/-- What holds between two turns: the cursor is on a boundary and the contexts
have their shape. -/
structure Inv (source : SourceFile) (lexer : Lexer) : Prop where
  cursor : ∃ front tail, At source lexer front tail
  contexts : Alternating lexer.contexts

theorem inv_new (source : SourceFile) : Inv source Lexer.new :=
  ⟨⟨[], source.text, rfl, rfl⟩, by simp [Lexer.new, Alternating]⟩

/-- A turn from a good state moves on and ends in a good state. -/
theorem step_inv (good : Inv source lexer) (inside : lexer.position < source.len) :
    ∃ later, (step source).run lexer = some ((), later) ∧ lexer.position < later.position ∧ Inv source later := by
  obtain ⟨front, tail, cursor⟩ := good.cursor
  have nonempty := cursor.lt_len_iff.mp inside
  have takes := Scan.next_takes (lexer.view front) nonempty
  have positive := width_pos_of_ne_nil takes.nonempty
  refine ⟨_, step_run cursor nonempty, ?_, ⟨_, _, cursor.emit takes⟩, ?_⟩
  · simp only [emit]
    omega
  · exact Scan.next_alternating good.contexts tail

theorem reachable_inv (reached : Reachable source lexer) : Inv source lexer := by
  induction reached with
  | new => exact inv_new source
  | turn _ inside stepped ih =>
    obtain ⟨_, stepped', _, good⟩ := step_inv ih inside
    rw [stepped'] at stepped
    cases stepped
    exact good

end Lexer

/-- Lexing ends for every source without a panic; the tokens are nonempty,
contiguous, in order, on scalar boundaries and cover the source exactly; and in
every state of the run the next turn makes progress and the contexts alternate
above the root. -/
theorem lexOpaal_lossless (source : SourceFile) :
    (∃ tokens, lexOpaal source = some tokens ∧ Tiles source 0 tokens source.len ∧
      ∃ pieces : List (List Char), tokens.map (·.text source) = pieces.map .ok ∧ pieces.flatten = source.text) ∧
    ∀ lexer, Lexer.Reachable source lexer → Alternating lexer.contexts ∧
      (lexer.position < source.len →
        ∃ later, (Lexer.step source).run lexer = some ((), later) ∧ lexer.position < later.position) := by
  have enough : source.text.length < source.len + 1 := Nat.lt_succ_of_le (length_le_width source.text)
  obtain ⟨spelled, nonempty⟩ := Scan.lexemes_spell Scan.Reader.new enough
  refine ⟨⟨_, lexOpaal_eq_place source, ?_, ?_⟩, ?_⟩
  · exact place_tiles [] spelled.symm nonempty
  · refine ⟨(Scan.lexemes (source.len + 1) Scan.Reader.new source.text).map (·.text), ?_, ?_⟩
    · rw [map_map]
      exact place_texts [] spelled.symm
    · exact spelled
  · intro lexer reached
    have good := Lexer.reachable_inv reached
    refine ⟨good.contexts, ?_⟩
    intro inside
    obtain ⟨later, stepped, progress, _⟩ := Lexer.step_inv good inside
    exact ⟨later, stepped, progress⟩

end Opaal.Syntax
