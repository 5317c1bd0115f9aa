import Mathlib.Tactic
import Opaal.Machine.Shadowing
import Opaal.Syntax.Parser.Statements

/-!
# What every step of the parser may do

The position never falls back over a whole step and never leaves the tokens, the
depths are balanced, and no step panics or runs out of its bound.  This module
states that for the primitive operations.
-/

namespace Opaal.Syntax

open Opaal.Machine
open Opaal.Text

variable {source : SourceFile}

namespace ParserInput

/-- Where the token at an index starts; past the tokens, the end of the source. -/
def offset (input : ParserInput source) (index : Nat) : Nat := input.tokens[index]?.elim source.len (·.span.start)

/-- What the parser is started with: tokens that tile the source, single-quoted
tokens with both quotes, and a predicate that never cancels. -/
structure Sound (input : ParserInput source) : Prop where
  contiguous : ∀ {index token}, input.tokens[index]? = some token → token.span.stop = input.offset (index + 1)
  quoted : ∀ token ∈ input.tokens, token.kind = .singleQuoted →
    ∃ body, token.text = .ok ('\'' :: (body ++ ['\'']))
  calm : ∀ polls, input.isCancelled polls = false

/-- The same for a predicate that may cancel, and that stays true once it is. -/
structure Lexed (input : ParserInput source) : Prop where
  contiguous : ∀ {index token}, input.tokens[index]? = some token → token.span.stop = input.offset (index + 1)
  quoted : ∀ token ∈ input.tokens, token.kind = .singleQuoted →
    ∃ body, token.text = .ok ('\'' :: (body ++ ['\'']))
  stays : ∀ polls, input.isCancelled polls = true → input.isCancelled (polls + 1) = true

/-- The predicate never cancels. -/
def Calm (input : ParserInput source) : Prop := ∀ polls, input.isCancelled polls = false

variable {input : ParserInput source}

theorem Sound.lexed (sound : input.Sound) : input.Lexed where
  contiguous := sound.contiguous
  quoted := sound.quoted
  stays := by
    intro polls cancelled
    rw [sound.calm polls] at cancelled
    cases cancelled

theorem Lexed.stays_from (lexed : input.Lexed) {first last : Nat} (ordered : first ≤ last)
    (cancelled : input.isCancelled first = true) : input.isCancelled last = true := by
  induction last, ordered using Nat.le_induction with
  | base => exact cancelled
  | succ last _ ih => exact lexed.stays last ih

theorem offset_of_token {index : Nat} {token : PlacedToken source} (found : input.tokens[index]? = some token) :
    input.offset index = token.span.start := by
  unfold offset
  rw [found]
  rfl

theorem Lexed.offset_succ (sound : input.Lexed) (index : Nat) : input.offset index ≤ input.offset (index + 1) := by
  cases found : input.tokens[index]? with
  | some token =>
    rw [offset_of_token found, ← sound.contiguous found]
    exact token.span.covers.ordered
  | none =>
    have ended : input.tokens[index + 1]? = none := by
      rw [List.getElem?_eq_none_iff] at found ⊢
      omega
    simp [offset, found, ended]

theorem Lexed.offset_mono (sound : input.Lexed) {first last : Nat} (ordered : first ≤ last) :
    input.offset first ≤ input.offset last := by
  induction last, ordered using Nat.le_induction with
  | base => exact Nat.le_refl _
  | succ last _ ih => exact Nat.le_trans ih (sound.offset_succ last)

end ParserInput

variable (region : source.Region)

/-- Every token ends on a boundary and not before it starts, as any region does. -/
theorem SourceFile.Region.ordered : region.start ≤ region.stop := region.covers.ordered

theorem SourceFile.Region.opens : IsBoundary source.text region.start :=
  region.covers.startBoundary

theorem SourceFile.Region.closes : IsBoundary source.text region.stop :=
  region.covers.stopBoundary

namespace Parser

/-- The states a rule is entered in, when the predicate never cancels. -/
structure Valid (input : ParserInput source) (parser : Parser source) : Prop where
  sound : input.Sound
  within : parser.position ≤ input.tokens.length
  brackets : parser.bracketEnds.length = input.tokens.length

/-- The states a rule is entered in. -/
structure Entered (input : ParserInput source) (parser : Parser source) : Prop where
  sound : input.Lexed
  within : parser.position ≤ input.tokens.length
  brackets : parser.bracketEnds.length = input.tokens.length

theorem Valid.entered {input : ParserInput source} {parser : Parser source} (valid : Valid input parser) :
    Entered input parser :=
  ⟨valid.sound.lexed, valid.within, valid.brackets⟩

/-- From here on the predicate cancels. -/
def Tripped (input : ParserInput source) (parser : Parser source) : Prop := input.isCancelled parser.polls = true

instance (input : ParserInput source) (parser : Parser source) : Decidable (Tripped input parser) :=
  inferInstanceAs (Decidable (_ = _))

/-- One state after another. -/
structure Later (input : ParserInput source) (first second : Parser source) : Prop where
  position : first.position ≤ second.position
  offset : input.offset first.position ≤ input.offset second.position
  within : first.position ≤ input.tokens.length → second.position ≤ input.tokens.length
  continuation : first.continuationDepth ≤ second.continuationDepth
  condition : second.controlConditionDepth = first.controlConditionDepth
  chain : second.valueChainDepth = first.valueChainDepth
  brackets : second.bracketEnds = first.bracketEnds
  polls : first.polls ≤ second.polls

attribute [grind →] Later.position Later.offset

variable {input : ParserInput source} {parser : Parser source}

theorem Later.refl (parser : Parser source) : Later input parser parser :=
  ⟨Nat.le_refl _, Nat.le_refl _, id, Nat.le_refl _, rfl, rfl, rfl, Nat.le_refl _⟩

variable {first second : Parser source}

theorem Later.trans {third : Parser source} (one : Later input first second)
    (two : Later input second third) : Later input first third where
  position := Nat.le_trans one.position two.position
  offset := Nat.le_trans one.offset two.offset
  within := fun inside => two.within (one.within inside)
  continuation := Nat.le_trans one.continuation two.continuation
  condition := two.condition.trans one.condition
  chain := two.chain.trans one.chain
  brackets := two.brackets.trans one.brackets
  polls := Nat.le_trans one.polls two.polls

/-- Only the position and the depths matter to the order. -/
theorem Later.of_position (sound : input.Lexed)
    (position : first.position ≤ second.position) (within : second.position ≤ input.tokens.length)
    (continuation : first.continuationDepth ≤ second.continuationDepth)
    (condition : second.controlConditionDepth = first.controlConditionDepth)
    (chain : second.valueChainDepth = first.valueChainDepth) (brackets : second.bracketEnds = first.bracketEnds)
    (polls : first.polls ≤ second.polls) : Later input first second :=
  ⟨position, sound.offset_mono position, fun _ => within, continuation, condition, chain, brackets, polls⟩

theorem Later.keeps (later : Later input first second) (valid : Entered input first) :
    Entered input second where
  sound := valid.sound
  within := later.within valid.within
  brackets := by rw [later.brackets]; exact valid.brackets

theorem Tripped.later (tripped : Tripped input first) (lexed : input.Lexed)
    (later : Later input first second) : Tripped input second :=
  lexed.stays_from later.polls tripped

theorem Tripped.not_calm (tripped : Tripped input parser) : ¬ input.Calm := by
  intro calm
  rw [Tripped, calm parser.polls] at tripped
  cases tripped

/-- The errors a rule may raise.  Where the predicate may cancel, a rule may also be
cancelled or stumble. -/
def Expected (input : ParserInput source) : ParseError source → Prop
  | .incomplete _ | .invalid _ => True
  | .cancelled => ¬ input.Calm
  | .invalidMany diagnostics => diagnostics = [] ∧ ¬ input.Calm
  | _ => False

/-- The discipline of every parser rule. -/
def order (input : ParserInput source) : Order (ParseError source) (Parser source) where
  valid := Entered input
  later := Later input
  allowed := Expected input
  refl := .refl
  trans := .trans
  keeps := Later.keeps

/-! ## Inputs that are alike -/

/-- A second predicate for the same tokens, that differs only from where polls are lost.
Where the first cancels and nothing is lost, the second stays cancelled. -/
structure Alike (input : ParserInput source) where
  isCancelled : Nat → Bool
  lost : Nat → Prop
  stays : ∀ {first last : Nat}, first ≤ last → lost first → lost last
  answers : ∀ polls, ¬ lost (polls + 1) → isCancelled polls = input.isCancelled polls
  cancels : ∀ {first last : Nat}, ¬ lost first → input.isCancelled first = true → first ≤ last →
    isCancelled last = true

def Alike.follow (alike : Alike input) : ParserInput source := { input with isCancelled := alike.isCancelled }

/-- Where a rule stumbles the other one is not followed. -/
def Astray : ParseError source → Prop
  | .invalidMany diagnostics => diagnostics = []
  | _ => False

theorem Astray.eq {error : ParseError source} (astray : Astray error) : error = .invalidMany [] := by
  cases error with
  | invalidMany diagnostics => rw [show diagnostics = [] from astray]
  | incomplete | invalid | cancelled | panicked | exhausted => exact astray.elim

/-- A panic, or a loop without an end. -/
def Doomed : ParseError source → Prop
  | .panicked | .exhausted => True
  | _ => False

theorem Doomed.cases {error : ParseError source} (doomed : Doomed error) : error = .panicked ∨ error = .exhausted := by
  cases error with
  | panicked => exact .inl rfl
  | exhausted => exact .inr rfl
  | incomplete | invalid | invalidMany | cancelled => exact doomed.elim

/-- Rules on the two inputs, under a discipline that lets polls only grow. -/
def Alike.under (alike : Alike input) (order : Order (ParseError source) (Parser source))
    (ticks : ∀ {first second : Parser source}, order.later first second → first.polls ≤ second.polls) :
    Comparison (ParserInput source) (ParseError source) (Parser source) where
  toOrder := order
  lead := input
  follow := alike.follow
  clock := Parser.polls
  ticks := ticks
  lost := alike.lost
  stays := alike.stays
  astray := Astray
  doomed := Doomed

def Alike.comparison (alike : Alike input) : Comparison (ParserInput source) (ParseError source) (Parser source) :=
  alike.under (order input) Later.polls

variable {alike : Alike input}

/-- A rule that keeps to the discipline and returns with `post`, followed by another. -/
abbrev Mirrors {α : Type} (alike : Alike input) (leading following : ParseM source α) (parser : Parser source)
    (post : α → Parser source → Prop) : Prop :=
  Follows alike.comparison leading following parser post

/-- A rule that is followed by itself. -/
abbrev Parses {α : Type} (alike : Alike input) (rule : ParseM source α) (parser : Parser source)
    (post : α → Parser source → Prop) : Prop :=
  Mirrors alike rule rule parser post

section Words

variable {α β : Type} {leading following : ParseM source α} {rest rest' : α → ParseM source β}
  {middle weaker : α → Parser source → Prop} {post : β → Parser source → Prop}

/-- Sequencing of rules, in the words of the parser's order. -/
theorem Mirrors.bind (first : Mirrors alike leading following parser middle)
    (second : ∀ value after, Later input parser after → middle value after →
      Mirrors alike (rest value) (rest' value) after post) :
    Mirrors alike (leading >>= rest) (following >>= rest') parser post :=
  Follows.bind first second

section

variable (mirrors : Mirrors alike leading following parser middle)
include mirrors

theorem Mirrors.mono (weaken : ∀ value after, Later input parser after → middle value after → weaker value after) :
    Mirrors alike leading following parser weaker :=
  Follows.mono mirrors weaken

theorem Mirrors.anything :
    Mirrors alike leading following parser fun _ _ => True :=
  mirrors.mono fun _ _ _ _ => trivial

theorem Mirrors.runs : Runs (order input) leading input parser middle :=
  mirrors.ends

end

theorem Mirrors.assume (mirrors : Entered input parser → Mirrors alike leading following parser middle) :
    Mirrors alike leading following parser middle :=
  Follows.assume mirrors

/-- A step that never returns. -/
theorem Mirrors.stops (first : Mirrors alike leading following parser fun _ _ => False) :
    Mirrors alike (leading >>= rest) (following >>= rest') parser post :=
  Follows.stops first

/-- A step that only reads the state. -/
theorem Mirrors.reads {origin : Parser source} {value : α} (led : leading input parser = .ok value parser)
    (followed : following alike.follow parser = .ok value parser)
    (second : FollowsFrom alike.comparison origin (rest value) (rest' value) parser post) :
    FollowsFrom alike.comparison origin (leading >>= rest) (following >>= rest') parser post :=
  Follows.reads led followed second

theorem Parses.pure {value : α} (holds : middle value parser) : Parses alike (pure value) parser middle := Follows.pure holds

/-- A rule that refuses. -/
theorem Parses.throw {error : ParseError source} (expected : Expected input error) (kept : ¬ Astray error) :
    Parses alike (throw error) parser middle :=
  Follows.throw expected fun astray => absurd astray kept

/-- A rule that answers alike on both inputs and leaves the state as it is. -/
def Answers (alike : Alike input) (rule : ParseM source α) (parser : Parser source) (holds : α → Prop) : Prop :=
  ∃ value, rule input parser = .ok value parser ∧ rule alike.follow parser = .ok value parser ∧ holds value

theorem Answers.pure {value : α} {holds : α → Prop} (held : holds value) :
    Answers alike (pure value : ParseM source α) parser holds :=
  ⟨value, rfl, rfl, held⟩

/-- A first step that is seen to answer. -/
theorem Answers.reads {value : α} {holds : β → Prop} (led : leading input parser = .ok value parser)
    (followed : leading alike.follow parser = .ok value parser) (second : Answers alike (rest value) parser holds) :
    Answers alike (leading >>= rest) parser holds := by
  obtain ⟨value', answered, answered', held⟩ := second
  exact ⟨value', (ok_bind led).trans answered, (ok_bind followed).trans answered', held⟩

theorem Answers.bind {among : α → Prop} {holds : β → Prop} (first : Answers alike leading parser among)
    (second : ∀ value, among value → Answers alike (rest value) parser holds) :
    Answers alike (leading >>= rest) parser holds := by
  obtain ⟨value, answered, answered', held⟩ := first
  exact .reads answered answered' (second value held)

/-- Only the tokens of the input count. -/
theorem Answers.of_input {rest : ParserInput source → ParseM source β} {holds : β → Prop}
    (same : rest alike.follow = rest input) (second : Answers alike (rest input) parser holds) :
    Answers alike (read >>= rest) parser holds := by
  obtain ⟨value, answered, answered', held⟩ := second
  refine ⟨value, answered, ?_, held⟩
  rw [← same] at answered'
  exact answered'

theorem Mirrors.answers {origin : Parser source} {holds : α → Prop} (first : Answers alike leading parser holds)
    (second : ∀ value, holds value → FollowsFrom alike.comparison origin (rest value) (rest' value) parser post) :
    FollowsFrom alike.comparison origin (leading >>= rest) (leading >>= rest') parser post := by
  obtain ⟨value, answered, answered', held⟩ := first
  exact Mirrors.reads answered answered' (second value held)

end Words

/-! ## Moving on -/

/-- A rule that returned or refused has left a position behind. -/
def Leaves {α : Type} (position : Nat) : EStateM.Result (ParseError source) (Parser source) α → Prop
  | .ok _ after => position < after.position
  | .error (.invalid _) after => position < after.position
  | .error _ _ => True

/-- A rule that returned is still where it was, and it does not refuse. -/
def Stands {α : Type} (position : Nat) : EStateM.Result (ParseError source) (Parser source) α → Prop
  | .ok _ after => after.position = position
  | .error (.invalid _) _ => False
  | .error _ _ => True

/-- The current token is of an accepted kind. -/
def Faces (input : ParserInput source) (accepts : TokenKind → Bool) (parser : Parser source) : Prop :=
  ∃ token, input.tokens[parser.position]? = some token ∧ accepts token.kind = true

/-- A rule that moves on from where it is entered if it may. -/
structure Takes {α : Type} (alike : Alike input) (may : Prop) (leading following : ParseM source α) (parser : Parser source)
    (post : α → Parser source → Prop) : Prop where
  mirrors : Mirrors alike leading following parser post
  leaves : may → Entered input parser → Leaves parser.position (leading input parser)

section Takes

variable {α β : Type} {may : Prop} {leading following : ParseM source α} {rest rest' : α → ParseM source β}
  {middle : α → Parser source → Prop} {post : β → Parser source → Prop}

theorem Mirrors.leaves (mirrors : Mirrors alike leading following parser middle) (valid : Entered input parser)
    {position : Nat} (past : position < parser.position) : Leaves position (leading input parser) := by
  have outcome := mirrors.runs valid
  cases result : leading input parser with
  | ok _ after =>
    rw [result] at outcome
    have later : Later input parser after := outcome.1
    exact Nat.lt_of_lt_of_le past later.position
  | error error after =>
    rw [result] at outcome
    have later : Later input parser after := outcome.1
    have further : position < after.position := Nat.lt_of_lt_of_le past later.position
    cases error with
    | invalid => exact further
    | incomplete | invalidMany | cancelled | panicked | exhausted => trivial

/-- What stands behind a step that moves on may be any. -/
theorem Takes.bind (first : Takes alike may leading following parser middle)
    (second : ∀ value after, Later input parser after → middle value after →
      Mirrors alike (rest value) (rest' value) after post) :
    Takes alike may (leading >>= rest) (following >>= rest') parser post where
  mirrors := first.mirrors.bind second
  leaves := by
    intro here valid
    have left := first.leaves here valid
    have outcome := first.mirrors.runs valid
    cases result : leading input parser with
    | ok value after =>
      rw [result] at left outcome
      rw [ok_bind result]
      have later : Later input parser after := outcome.1
      exact (second value after later outcome.2).leaves (later.keeps valid) left
    | error error =>
      rw [result] at left
      rw [error_bind result]
      cases error <;> exact left

/-- So may what stands before it, when it stays in place. -/
theorem Takes.behind (first : Mirrors alike leading following parser middle)
    (stands : Stands parser.position (leading input parser))
    (second : ∀ value after, Later input parser after → middle value after →
      Takes alike may (rest value) (rest' value) after post) :
    Takes alike may (leading >>= rest) (following >>= rest') parser post where
  mirrors := first.bind fun value after later holds => (second value after later holds).mirrors
  leaves := by
    intro here valid
    have outcome := first.runs valid
    cases result : leading input parser with
    | ok value after =>
      rw [result] at stands outcome
      rw [ok_bind result]
      have later : Later input parser after := outcome.1
      have same : after.position = parser.position := stands
      rw [← same]
      exact (second value after later outcome.2).leaves here (later.keeps valid)
    | error error =>
      rw [result] at stands
      rw [error_bind result]
      cases error with
      | invalid => exact stands.elim
      | incomplete | invalidMany | cancelled | panicked | exhausted => trivial

theorem Takes.reads {value : α} (led : leading input parser = .ok value parser)
    (followed : following alike.follow parser = .ok value parser)
    (second : Takes alike may (rest value) (rest' value) parser post) :
    Takes alike may (leading >>= rest) (following >>= rest') parser post where
  mirrors := .reads led followed second.mirrors
  leaves := by
    rw [ok_bind led]
    exact second.leaves

theorem Takes.weaken {must : Prop} (takes : Takes alike must leading following parser middle) (implies : may → must) :
    Takes alike may leading following parser middle :=
  ⟨takes.mirrors, fun here => takes.leaves (implies here)⟩

/-- A rule that is not entered where it may be. -/
theorem Takes.never (mirrors : Mirrors alike leading following parser middle) (not : ¬ may) :
    Takes alike may leading following parser middle :=
  ⟨mirrors, fun here => absurd here not⟩

end Takes

/-- A rule took tokens from one state to another and the span it built lies
between them. -/
structure Parsed (input : ParserInput source) (first : Parser source) (span : source.Region)
    (second : Parser source) : Prop where
  taken : first.position < second.position
  starts : input.offset first.position ≤ span.start
  stops : span.stop ≤ input.offset second.position

theorem Parsed.ordered {span : source.Region}
    (_ : Parsed input first span second) : span.start ≤ span.stop :=
  span.ordered

attribute [grind →] Parsed.taken Parsed.starts Parsed.stops Parsed.ordered

/-- Only the position a rule was entered at counts. -/
theorem Parsed.of_position {first' : Parser source} {span : source.Region}
    (parsed : Parsed input first span second) (position : first.position = first'.position) :
    Parsed input first' span second := by
  refine ⟨?_, ?_, parsed.stops⟩
  · rw [← position]
    exact parsed.taken
  · rw [← position]
    exact parsed.starts

/-- A range from `start` may end at `stop`. -/
structure Reached (input : ParserInput source) (start stop : Nat) (parser : Parser source) : Prop where
  closes : IsBoundary source.text stop
  ordered : start ≤ stop
  within : stop ≤ input.offset parser.position

attribute [grind →] Reached.closes Reached.ordered Reached.within

theorem Reached.later {start stop : Nat} (reached : Reached input start stop first)
    (later : Later input first second) : Reached input start stop second :=
  ⟨reached.closes, reached.ordered, Nat.le_trans reached.within later.offset⟩

/-- What was parsed reaches its end from any start before it. -/
theorem Parsed.reached {start : Nat} {span : source.Region}
    (parsed : Parsed input first span second) (ordered : start ≤ input.offset first.position) :
    Reached input start span.stop second :=
  ⟨span.closes, Nat.le_trans ordered (Nat.le_trans parsed.starts span.ordered), parsed.stops⟩

/-! ## Tokens -/

/-- The state past the current token. -/
def advanced (parser : Parser source) (count : Nat) : Parser source :=
  { parser with position := parser.position + count }

/-- One token was taken. -/
structure Took (input : ParserInput source) (first : Parser source) (token : PlacedToken source)
    (second : Parser source) : Prop extends Parsed input first token.span second where
  found : input.tokens[first.position]? = some token
  position : second.position = first.position + 1
  continuation : second.continuationDepth = first.continuationDepth

attribute [grind →] Took.toParsed Took.position

theorem lt_length_of_token {index : Nat} {token : PlacedToken source} (found : input.tokens[index]? = some token) :
    index < input.tokens.length := by
  by_contra outside
  rw [List.getElem?_eq_none (Nat.not_lt.mp outside)] at found
  cases found

theorem lt_length_of_kind {index : Nat} {kind : TokenKind}
    (found : input.tokens[index]?.map (·.kind) = some kind) : index < input.tokens.length := by
  rw [Option.map_eq_some_iff] at found
  obtain ⟨_, found, _⟩ := found
  exact lt_length_of_token found

theorem lt_length_of_beq {index : Nat} {kind : TokenKind}
    (found : (input.tokens[index]?.map (·.kind) == some kind) = true) : index < input.tokens.length :=
  lt_length_of_kind (eq_of_beq found)

theorem Later.advanced (valid : Entered input parser) {count : Nat}
    (inside : parser.position + count ≤ input.tokens.length) : Later input parser (parser.advanced count) :=
  .of_position valid.sound (Nat.le_add_right _ _) inside (Nat.le_refl _) rfl rfl rfl (Nat.le_refl _)

theorem Took.of_token (valid : Entered input parser) {token : PlacedToken source}
    (found : input.tokens[parser.position]? = some token) : Took input parser token (parser.advanced 1) where
  taken := Nat.lt_succ_self _
  starts := Nat.le_of_eq (ParserInput.offset_of_token found)
  stops := Nat.le_of_eq (valid.sound.contiguous found)
  found := found
  position := rfl
  continuation := rfl

section Primitives

variable {α β : Type}

/-- Moving over tokens that are there. -/
theorem advance_parses (count : Nat) (inside : parser.position + count ≤ input.tokens.length) :
    Parses alike (advance count) parser fun _ after => after = parser.advanced count :=
  .assume fun valid => .of_eq rfl rfl (Later.advanced valid inside) rfl

variable {token : PlacedToken source} {rest rest' : source.Region → ParseM source α} {post : α → Parser source → Prop}
  {accepts : TokenKind → Bool} {reason : IncompleteReason} {message : String} {first second : Parser source}
  {body body' : α → ParseM source (Turn α β)} {part part' : ParseM source α}

/-- Moving over the current token. -/
theorem advance_one_parses (found : input.tokens[parser.position]? = some token) :
    Parses alike (advance 1) parser fun _ after => Took input parser token after := by
  refine .assume fun valid => ?_
  refine .mono (advance_parses 1 (lt_length_of_token found)) ?_
  rintro _ _ _ rfl
  exact .of_token valid found

/-- Moving over a token that is there. -/
theorem advance_inside_parses (inside : parser.position < input.tokens.length) :
    Parses alike (advance 1) parser fun _ after => ∃ token, Took input parser token after := by
  have found := List.getElem?_eq_getElem inside
  refine .mono (advance_one_parses found) ?_
  intro _ _ _ took
  exact ⟨_, took⟩

/-- A token of its own, taken as a step of a loop. -/
theorem advance_one_bind {rest rest' : ParseM source α}
    (found : input.tokens[parser.position]? = some token)
    (second : ∀ after, Later input parser after → Took input parser token after → Mirrors alike rest rest' after post) :
    Mirrors alike (advance 1 >>= fun _ => rest) (advance 1 >>= fun _ => rest') parser post := by
  refine (advance_one_parses found).bind ?_
  intro _ after later took
  exact second after later took

theorem Takes.advance_one_bind {may : Prop} {rest rest' : ParseM source α}
    (found : input.tokens[parser.position]? = some token)
    (second : ∀ after, Later input parser after → Took input parser token after → Mirrors alike rest rest' after post) :
    Takes alike may (advance 1 >>= fun _ => rest) (advance 1 >>= fun _ => rest') parser post :=
  .bind ⟨advance_one_parses found, fun _ _ => Nat.lt_succ_self _⟩ fun _ => second

theorem take_parses : Parses alike take parser fun taken after =>
    match taken with
    | some token => Took input parser token after
    | none => after = parser ∧ input.tokens.length ≤ parser.position := by
  refine .reads rfl rfl ?_
  split
  · next token found =>
    refine (advance_one_parses found).bind ?_
    intro _ after _ took
    exact .pure took
  · next missing => exact Parses.pure ⟨rfl, List.getElem?_eq_none_iff.mp missing⟩

theorem takeSome_parses (inside : parser.position < input.tokens.length) :
    Parses alike take parser fun taken after => ∃ token, taken = some token ∧ Took input parser token after := by
  refine .mono take_parses ?_
  rintro (_ | token) after _ took
  · exact absurd took.2 (Nat.not_le.mpr inside)
  · exact ⟨token, rfl, took⟩

theorem take_takes : Takes alike (parser.position < input.tokens.length) take take parser fun taken after =>
    match taken with
    | some token => Took input parser token after
    | none => after = parser ∧ input.tokens.length ≤ parser.position where
  mirrors := take_parses
  leaves := by
    intro inside _
    show Leaves parser.position ((match input.tokens[parser.position]? with | some _ => _ | none => _ : ParseM source _) input parser)
    rw [List.getElem?_eq_getElem inside]
    exact Nat.lt_succ_self _

/-- `expect` on a token that is there. -/
theorem takeExpected_parses (inside : parser.position < input.tokens.length) :
    Parses alike (do expect (← take)) parser (Took input parser) := by
  refine (takeSome_parses inside).bind ?_
  rintro _ after _ ⟨_, rfl, took⟩
  exact .pure took

/-- The same as one step of a rule. -/
theorem takeExpected_bind {rest rest' : PlacedToken source → ParseM source α}
    (inside : parser.position < input.tokens.length)
    (second : ∀ token after, Later input parser after → Took input parser token after →
      Mirrors alike (rest token) (rest' token) after post) :
    Mirrors alike (take >>= fun taken => expect taken >>= rest) (take >>= fun taken => expect taken >>= rest') parser post := by
  rw [← bind_assoc, ← bind_assoc]
  exact (takeExpected_parses inside).bind second

theorem Takes.takeExpected_bind {may : Prop} {rest rest' : PlacedToken source → ParseM source α}
    (inside : parser.position < input.tokens.length)
    (second : ∀ token after, Later input parser after → Took input parser token after →
      Mirrors alike (rest token) (rest' token) after post) :
    Takes alike may (take >>= fun taken => expect taken >>= rest) (take >>= fun taken => expect taken >>= rest') parser post := by
  refine .bind (take_takes.weaken fun _ => inside) ?_
  rintro (_ | token) after later took
  · exact absurd inside (Nat.not_lt.mpr took.2)
  · exact .reads rfl rfl (second token after later took)

/-- A token of an accepted kind was taken. -/
structure TookKind (input : ParserInput source) (parser : Parser source) (accepts : TokenKind → Bool)
    (token : PlacedToken source) (after : Parser source) : Prop extends Took input parser token after where
  accepted : accepts token.kind = true

attribute [grind →] TookKind.toTook

/-- A token of an accepted kind was taken, or the state is as it was. -/
theorem takeIf_parses : Parses alike (takeIf accepts) parser fun taken after =>
    match taken with
    | some token => TookKind input parser accepts token after
    | none => after = parser := by
  refine Mirrors.reads rfl rfl ?_
  split
  · next accepted =>
    refine Mirrors.mono take_parses ?_
    rintro (_ | token) after _ took
    · exact took.1
    · simp only [took.found, Option.map_some, Option.any_some] at accepted
      exact ⟨took, accepted⟩
  · exact Parses.pure rfl

/-- The same as one step of a rule. -/
theorem takeIf_bind {rest rest' : Option (PlacedToken source) → ParseM source α}
    (missing : Mirrors alike (rest none) (rest' none) parser post)
    (found : ∀ token after, Later input parser after → TookKind input parser accepts token after →
      Mirrors alike (rest (some token)) (rest' (some token)) after post) :
    Mirrors alike (takeIf accepts >>= rest) (takeIf accepts >>= rest') parser post := by
  refine takeIf_parses.bind ?_
  rintro (_ | token) after later took
  · obtain rfl : after = parser := took
    exact missing
  · exact found token after later took

/-! ## Spans and errors -/

/-- A span between two boundaries in order. -/
theorem span_parses {start stop : Nat} (opens : IsBoundary source.text start) (closes : IsBoundary source.text stop)
    (ordered : start ≤ stop) : Mirrors alike (span start stop) (span start stop) parser fun region after =>
      after = parser ∧ region.start = start ∧ region.stop = stop := by
  obtain ⟨_, made, starts, stops⟩ := SourceFile.region_ok ordered opens closes
  unfold span
  rw [made]
  exact .pure ⟨rfl, starts, stops⟩

/-- A span as one step of a rule. -/
theorem span_bind {start stop : Nat}
    (opens : IsBoundary source.text start) (closes : IsBoundary source.text stop) (ordered : start ≤ stop)
    (second : ∀ region : source.Region, region.start = start → region.stop = stop →
      Mirrors alike (rest region) (rest' region) parser post) :
    Mirrors alike (span start stop >>= rest) (span start stop >>= rest') parser post := by
  refine (span_parses opens closes ordered).bind ?_
  rintro region _ _ ⟨rfl, starts, stops⟩
  exact second region starts stops

/-- A span that only stands in what is returned. -/
theorem span_pure {build : source.Region → α} {start stop : Nat}
    (opens : IsBoundary source.text start) (closes : IsBoundary source.text stop) (ordered : start ≤ stop)
    (holds : ∀ region, post (build region) parser) :
    Parses alike (span start stop >>= fun region => pure (build region)) parser post := by
  refine span_bind opens closes ordered ?_
  intro region _ _
  exact .pure (holds region)

/-- A span over what was parsed since an earlier state. -/
theorem spanned_bind (first : Parser source) {start stop : Nat}
    (opens : IsBoundary source.text start) (closes : IsBoundary source.text stop)
    (bounds : first.position < parser.position ∧ input.offset first.position ≤ start ∧ start ≤ stop ∧
      stop ≤ input.offset parser.position)
    (second : ∀ region, Parsed input first region parser → Mirrors alike (rest region) (rest' region) parser post) :
    Mirrors alike (span start stop >>= rest) (span start stop >>= rest') parser post := by
  obtain ⟨taken, behind, ordered, ahead⟩ := bounds
  refine span_bind opens closes ordered ?_
  rintro region rfl rfl
  exact second region ⟨taken, behind, ahead⟩

theorem hereSpan_parses : Parses alike hereSpan parser fun _ after => after = parser := by
  refine Mirrors.reads rfl rfl ?_
  split
  · exact Parses.pure rfl
  · have whole : IsBoundary source.text source.len := ⟨source.text, [], by simp, rfl⟩
    refine Mirrors.mono (span_parses whole whole (Nat.le_refl _)) ?_
    intro _ _ _ spanned
    exact spanned.1

theorem incompleteAt_parses {region : source.Region} :
    Parses alike (incompleteAt reason region) parser post :=
  .throw trivial id

theorem invalidAt_parses {region : source.Region} :
    Parses alike (invalidAt region message) parser post :=
  .throw trivial id

theorem incompleteHere_parses :
    Parses alike (incompleteHere reason) parser post := by
  refine hereSpan_parses.bind ?_
  intro _ _ _ _
  exact incompleteAt_parses

theorem invalidErrorHere_parses :
    Parses alike (invalidErrorHere message) parser fun error after =>
      after = parser ∧ ∃ diagnostic, error = .invalid diagnostic := by
  refine hereSpan_parses.bind ?_
  rintro region _ _ rfl
  exact .pure ⟨rfl, _, rfl⟩

theorem invalidHere_parses :
    Parses alike (invalidHere message) parser post := by
  refine invalidErrorHere_parses.bind ?_
  rintro _ _ _ ⟨_, _, rfl⟩
  exact Parses.throw trivial id

theorem expected_parses :
    Parses alike (expected message reason) parser post := by
  refine .reads rfl rfl ?_
  split
  · exact incompleteHere_parses
  · exact invalidHere_parses

theorem currentSpan_parses : Parses alike currentSpan parser fun region after =>
    after = parser ∧ ∃ token, input.tokens[parser.position]? = some token ∧ region = token.span := by
  refine .reads rfl rfl ?_
  split
  · next token found => exact Parses.pure ⟨rfl, token, found, rfl⟩
  · exact incompleteHere_parses

/-- The span of the current token, as one step of a rule. -/
theorem currentSpan_bind
    (second : ∀ token, input.tokens[parser.position]? = some token → Mirrors alike (rest token.span) (rest' token.span) parser post) :
    Mirrors alike (currentSpan >>= rest) (currentSpan >>= rest') parser post := by
  refine currentSpan_parses.bind ?_
  rintro _ _ _ ⟨rfl, token, found, rfl⟩
  exact second token found

theorem Takes.currentSpan_bind
    (second : ∀ token, input.tokens[parser.position]? = some token →
      Takes alike (Faces input accepts parser) (rest token.span) (rest' token.span) parser post) :
    Takes alike (Faces input accepts parser) (currentSpan >>= rest) (currentSpan >>= rest') parser post where
  mirrors := Parser.currentSpan_bind fun token found => (second token found).mirrors
  leaves := by
    rintro ⟨token, found, accepted⟩ valid
    have spanned : currentSpan input parser = .ok token.span parser := by
      show (match input.tokens[parser.position]? with | some _ => _ | none => _ : ParseM source _) input parser = _
      rw [found]
      rfl
    rw [ok_bind spanned]
    exact (second token found).leaves ⟨token, found, accepted⟩ valid

/-- A change of what no rule depends on. -/
theorem Later.of_unmoved (position : second.position = first.position)
    (continuation : second.continuationDepth = first.continuationDepth)
    (condition : second.controlConditionDepth = first.controlConditionDepth)
    (chain : second.valueChainDepth = first.valueChainDepth) (brackets : second.bracketEnds = first.bracketEnds)
    (polls : first.polls ≤ second.polls) : Later input first second := by
  refine ⟨Nat.le_of_eq position.symm, ?_, ?_, Nat.le_of_eq continuation.symm, condition, chain, brackets, polls⟩
  · rw [position]
  · rw [position]
    exact id

theorem pushDiagnostic_parses {diagnostic : Diagnostic source.Region} :
    Parses alike (pushDiagnostic diagnostic) parser fun _ after => after.position = parser.position :=
  .of_eq rfl rfl (Later.of_unmoved rfl rfl rfl rfl rfl (Nat.le_refl _)) rfl

theorem reportHere_parses :
    Parses alike (reportHere message) parser fun _ after => after.position = parser.position := by
  refine invalidErrorHere_parses.bind ?_
  rintro _ _ _ ⟨rfl, _, rfl⟩
  exact pushDiagnostic_parses

/-! ## Cancellation -/

/-- A poll changes nothing that rules depend on. -/
structure Unmoved (first second : Parser source) : Prop where
  position : second.position = first.position
  continuation : second.continuationDepth = first.continuationDepth

attribute [grind →] Unmoved.position

/-- A poll that cancels leaves a state from which every poll does. -/
theorem isCancelled_parses : Parses alike isCancelled parser fun answer after =>
    Unmoved parser after ∧ answer = input.isCancelled parser.polls ∧ (answer = true → Tripped input after) := by
  have later : Later input parser { parser with polls := parser.polls + 1 } :=
    .of_unmoved rfl rfl rfl rfl rfl (Nat.le_succ _)
  refine Mirrors.assume fun valid => ⟨Ends.of_eq rfl later ⟨⟨rfl, rfl⟩, rfl, valid.sound.stays parser.polls⟩, fun _ => ?_⟩
  refine ⟨Nat.le_succ _, fun going => ?_⟩
  show EStateM.Result.ok (alike.isCancelled parser.polls) _ = _
  rw [alike.answers parser.polls going]
  rfl

/-- Past a check the predicate has not cancelled. -/
theorem checkCancelled_passes : Parses alike checkCancelled parser fun _ after =>
    Unmoved parser after ∧ ¬ Tripped input parser := by
  refine isCancelled_parses.bind ?_
  rintro answer after _ ⟨unmoved, rfl, trips⟩
  split
  · next cancelled => exact Parses.throw (trips cancelled).not_calm id
  · next calm => exact .pure ⟨unmoved, calm⟩

theorem checkCancelled_parses : Parses alike checkCancelled parser fun _ after => Unmoved parser after :=
  checkCancelled_passes.mono fun _ _ _ passed => passed.1

theorem checkCancelled_stands : Stands parser.position (checkCancelled input parser) := by
  show Stands parser.position ((if input.isCancelled parser.polls = true then throw .cancelled else pure () :
    ParseM source Unit) input { parser with polls := parser.polls + 1 })
  split
  · exact trivial
  · exact rfl

/-! ## Required tokens -/

theorem requiredTake_parses :
    Parses alike (do required message (← takeIf accepts)) parser (TookKind input parser accepts) := by
  refine takeIf_bind expected_parses ?_
  intro token after _ took
  exact .pure took

theorem expectKeyword_parses {word : Keyword} :
    Parses alike (expectKeyword word message) parser (TookKind input parser (· == .keyword word)) :=
  requiredTake_parses

theorem expectOperator_parses {operator : Operator} :
    Parses alike (expectOperator operator message) parser (TookKind input parser (· == .operator operator)) :=
  requiredTake_parses

theorem expectDelimiter_parses {side : Delimiter} :
    Parses alike (expectDelimiter side message) parser (TookKind input parser (· == .delimiter side)) :=
  requiredTake_parses

theorem expectContextualIdentifier_parses {spelling : String} :
    Parses alike (expectContextualIdentifier spelling message) parser (Took input parser) := by
  refine .reads rfl rfl ?_
  split
  · next here =>
    rw [Option.any_eq_true] at here
    obtain ⟨_, found, _⟩ := here
    exact takeExpected_parses (lt_length_of_token found)
  · exact expected_parses

/-! ## Loops -/

/-- A loop whose every further pass lowers a measure of no more than the tokens, or goes
astray where the other one gets stuck. -/
theorem iterate_stuck {first : α} {stuck : Parser source → Prop}
    (goes : ∀ current state, stuck state →
      ∃ next after, body' current alike.follow state = .ok (.again next) after ∧ stuck after)
    (measure : Parser source → Nat) (invariant : α → Parser source → Prop) {post : β → Parser source → Prop}
    (small : measure parser < input.tokens.length + 1) (holds : invariant first parser)
    (pass : ∀ current middle, Later input parser middle → invariant current middle →
      Runs (order input) (body current) input middle (fun turn after =>
        match turn with
        | .again next => invariant next after ∧ measure after < measure middle
        | .done result => post result after) ∧
      (Entered input middle → ShadowsFrom alike.comparison (body current) (body' current) middle ∨
        StuckFrom alike.comparison stuck (body current) (body' current) middle)) :
    Mirrors alike (iterate body first) (iterate body' first) parser post := by
  have looped : Mirrors alike (repeatFrom .exhausted body (input.tokens.length + 1) first)
      (repeatFrom .exhausted body' (input.tokens.length + 1) first) parser post :=
    Follows.repeatFrom goes trivial measure pass small holds
  exact ⟨looped.ends, looped.shadows⟩

/-- A loop whose every further pass lowers a measure of no more than the tokens. -/
theorem iterate_measured {first : α} (measure : Parser source → Nat)
    (invariant : α → Parser source → Prop) {post : β → Parser source → Prop}
    (small : measure parser < input.tokens.length + 1) (holds : invariant first parser)
    (pass : ∀ current middle, Later input parser middle → invariant current middle →
      Mirrors alike (body current) (body' current) middle fun turn after =>
        match turn with
        | .again next => invariant next after ∧ measure after < measure middle
        | .done result => post result after) :
    Mirrors alike (iterate body first) (iterate body' first) parser post :=
  iterate_stuck (fun _ _ => False.elim) measure invariant small holds fun current middle later here =>
    ⟨(pass current middle later here).ends, fun valid => .inl ((pass current middle later here).shadows valid)⟩

variable (invariant : α → Parser source → Prop)

/-- A loop whose every further pass takes a token. -/
theorem iterate_parses {first : α} {post : β → Parser source → Prop} (holds : invariant first parser)
    (pass : ∀ current middle, Later input parser middle → invariant current middle → Mirrors alike (body current) (body' current) middle fun turn after => match turn with | .again next => invariant next after ∧ middle.position < after.position | .done result => post result after) :
    Mirrors alike (iterate body first) (iterate body' first) parser post := by
  -- what is left of the tokens falls with every pass that goes on
  refine iterate_measured (fun state => input.tokens.length - state.position) invariant (by omega) holds ?_
  intro current middle later invariantHolds
  refine .assume fun valid => ?_
  have turned := pass current middle later invariantHolds
  refine .mono turned ?_
  rintro (next | result) after stepped outcome
  · have within := stepped.within valid.within
    exact ⟨outcome.1, by omega⟩
  · exact outcome

/-- A loop as one step of a rule. -/
theorem iterate_bind {γ : Type} {first : α} {rest rest' : β → ParseM source γ} {post : γ → Parser source → Prop}
    (result : β → Parser source → Prop) (holds : invariant first parser)
    (pass : ∀ current middle, Later input parser middle → invariant current middle → Mirrors alike (body current) (body' current) middle fun turn after => match turn with | .again next => invariant next after ∧ middle.position < after.position | .done value => result value after)
    (second : ∀ value after, Later input parser after → result value after → Mirrors alike (rest value) (rest' value) after post) :
    Mirrors alike (iterate body first >>= rest) (iterate body' first >>= rest') parser post :=
  (iterate_parses invariant holds pass).bind second

/-- The tokens between two states are all of an accepted kind. -/
def Skips (input : ParserInput source) (accepts : TokenKind → Bool) (first second : Parser source) : Prop :=
  ∀ index, first.position ≤ index → index < second.position →
    (input.tokens[index]?.map (·.kind)).any accepts = true

theorem Skips.refl
    (unmoved : second.position = first.position) : Skips input accepts first second := by
  intro index from_ upto
  omega

theorem Skips.step {third : Parser source}
    (skips : Skips input accepts first second)
    (accepted : (input.tokens[second.position]?.map (·.kind)).any accepts = true)
    (position : third.position = second.position + 1) : Skips input accepts first third := by
  intro index from_ upto
  by_cases before : index < second.position
  · exact skips index from_ before
  · have here : index = second.position := by omega
    rw [here]
    exact accepted

/-- Nothing but accepted tokens was passed, and the current one is not accepted
unless skipping was cancelled. -/
structure Skipped (input : ParserInput source) (accepts : TokenKind → Bool) (first second : Parser source) : Prop where
  skips : Skips input accepts first second
  stopped : ¬ Tripped input second → (input.tokens[second.position]?.map (·.kind)).any accepts = false
  continuation : second.continuationDepth = first.continuationDepth

theorem skipWhile_parses :
    Parses alike (skipWhile accepts) parser fun _ after => Skipped input accepts parser after := by
  refine iterate_parses (fun _ middle =>
    Skips input accepts parser middle ∧ middle.continuationDepth = parser.continuationDepth)
    ⟨.refl rfl, rfl⟩ ?_
  rintro _ middle _ ⟨skips, depth⟩
  refine .reads rfl rfl ?_
  split
  · next accepted =>
    refine isCancelled_parses.bind ?_
    rintro answer polled _ ⟨⟨unmoved, unchanged⟩, _, trips⟩
    split
    · next cancelled =>
      refine .pure ⟨?_, fun going => absurd (trips cancelled) going, unchanged.trans depth⟩
      intro index from_ upto
      exact skips index from_ (unmoved ▸ upto)
    have there : polled.position < input.tokens.length := by
      rw [unmoved]
      rw [Option.any_eq_true] at accepted
      obtain ⟨kind, found, _⟩ := accepted
      exact lt_length_of_kind found
    refine (advance_parses 1 there).bind ?_
    rintro _ _ _ rfl
    refine .pure ⟨⟨skips.step accepted ?_, ?_⟩, ?_⟩
    · show polled.position + 1 = middle.position + 1
      rw [unmoved]
    · show polled.continuationDepth = _
      rw [unchanged, depth]
    · show middle.position < polled.position + 1
      omega
  · next stopped => exact Parses.pure ⟨skips, fun _ => by simpa using stopped, depth⟩

/-! ## Depths -/

theorem enterContinuation_parses : Parses alike enterContinuation parser fun _ entered =>
    entered.position = parser.position ∧ parser.continuationDepth < entered.continuationDepth := by
  refine .assume fun valid => ?_
  exact .of_eq rfl rfl
    (Later.of_position valid.sound (Nat.le_refl _) valid.within (Nat.le_succ _) rfl rfl rfl (Nat.le_refl _))
    ⟨rfl, Nat.lt_succ_self _⟩

/-- The depth is counted down to no less than it was before it was counted up. -/
theorem leaveContinuation_eq {origin : Parser source} (reached : Later input origin parser)
    (deeper : origin.continuationDepth < parser.continuationDepth) :
    ∃ left : Parser source, (∀ other, leaveContinuation other parser = .ok () left) ∧ left.polls = parser.polls ∧
      (Entered input parser → Entered input left) ∧ left.position = parser.position ∧ Later input origin left := by
  have nonzero : ¬ parser.continuationDepth = 0 := by omega
  refine ⟨{ parser with continuationDepth := parser.continuationDepth - 1 }, fun other => ?_, rfl, ?_, rfl, ?_⟩
  · show (if parser.continuationDepth = 0 then _ else _ : ParseM source Unit) other parser = _
    rw [if_neg nonzero]
    rfl
  · intro valid
    exact ⟨valid.sound, valid.within, valid.brackets⟩
  · exact ⟨reached.position, reached.offset, reached.within, Nat.le_sub_one_of_lt deeper, reached.condition,
      reached.chain, reached.brackets, reached.polls⟩

/-- A depth is counted down before the rest of a rule; at zero that panics. -/
def countDown (depth : Parser source → Nat) (change : Parser source → Parser source) (rest : ParseM source α) :
    ParseM source α := do
  let parser ← get
  if depth parser = 0 then panic
  set (change parser)
  rest

section CountDown

variable {depth : Parser source → Nat} {change : Parser source → Parser source}

theorem countDown_zero {rest : ParseM source α} {other : ParserInput source} (zero : depth parser = 0) :
    countDown depth change rest other parser = .error .panicked parser := by
  show (if depth parser = 0 then _ else _ : ParseM source α) other parser = _
  rw [if_pos zero]
  rfl

theorem countDown_succ {rest : ParseM source α} {other : ParserInput source} (nonzero : depth parser ≠ 0) :
    countDown depth change rest other parser = rest other (change parser) := by
  show (if depth parser = 0 then _ else _ : ParseM source α) other parser = _
  rw [if_neg nonzero]
  rfl

/-- The way out of a continuation. -/
theorem leaveContinuation_counts {rest : ParseM source α} :
    (do leaveContinuation; rest) = countDown Parser.continuationDepth
      (fun parser => { parser with continuationDepth := parser.continuationDepth - 1 }) rest := by
  unfold leaveContinuation countDown
  rw [bind_assoc]
  refine bind_congr fun parser => ?_
  split <;> rfl

/-- A part of a rule behind which a depth is counted down, whatever its outcome. -/
theorem countDown_parses {origin : Parser source} {part part' : ParseM source α} {post final : α → Parser source → Prop}
    (inner : Mirrors alike part part' parser post)
    (nonzero : ∀ inside, Later input parser inside → depth inside ≠ 0) (polls : ∀ inside, (change inside).polls = inside.polls)
    (keeps : ∀ inside, Entered input inside → Entered input (change inside))
    (later : ∀ inside, Later input parser inside → Later input origin (change inside))
    (holds : ∀ value inside, Later input parser inside → post value inside → final value (change inside)) :
    FollowsFrom alike.comparison origin (observed part >>= fun outcome => countDown depth change (replay outcome))
      (observed part' >>= fun outcome => countDown depth change (replay outcome)) parser final := by
  refine FollowsFrom.observed_bind inner (fun outcome inside stepped seen kept => ?_)
    (fun error inside stepped astray => ?_) fun error inside doomed => ?_
  · refine Mirrors.reads rfl rfl ?_
    rw [if_neg (nonzero inside stepped)]
    refine FollowsFrom.steps (change inside) rfl rfl (Nat.le_of_eq (polls inside).symm) (keeps inside) ?_
    refine FollowsFrom.of_follows (later inside stepped) (Follows.replay ?_ kept)
    cases outcome with
    | ok value => exact holds value inside stepped seen
    | error => exact seen
  · exact ⟨change inside, countDown_succ (nonzero inside stepped), Nat.le_of_eq (polls inside).symm, later inside stepped⟩
  · by_cases zero : depth inside = 0
    · exact ⟨_, _, countDown_zero zero, trivial⟩
    · exact ⟨error, _, countDown_succ zero, doomed⟩

end CountDown

/-- A part between the two keeps the position it reached. -/
theorem continued_parses
    (inner : ∀ entered, entered.position = parser.position → Mirrors alike part part' entered post) :
    Mirrors alike (continued part) (continued part') parser fun value after =>
      ∃ inside, post value inside ∧ after.position = inside.position := by
  refine FollowsFrom.bind (Later.refl parser) enterContinuation_parses ?_
  rintro _ entered reached ⟨position, opened⟩
  refine FollowsFrom.bind reached (inner entered position) ?_
  intro value inside stepped holds
  have deeper := Nat.lt_of_lt_of_le opened stepped.continuation
  obtain ⟨left, leaves, polls, keeps, unmoved, later⟩ := leaveContinuation_eq (Later.trans reached stepped) deeper
  refine FollowsFrom.steps left (leaves _) (leaves _) (Nat.le_of_eq polls.symm) keeps ?_
  exact FollowsFrom.of_eq rfl rfl (Nat.le_refl _) later ⟨inside, holds, unmoved⟩

/-- The same as one step of a rule. -/
theorem continued_bind {rest rest' : α → ParseM source β} {post : β → Parser source → Prop}
    (result : α → Parser source → Prop)
    (inner : ∀ entered, entered.position = parser.position → Mirrors alike part part' entered result)
    (second : ∀ value inside after, Later input parser after → result value inside →
      after.position = inside.position → Mirrors alike (rest value) (rest' value) after post) :
    Mirrors alike (continued part >>= rest) (continued part' >>= rest') parser post := by
  refine (continued_parses inner).bind ?_
  rintro value after later ⟨inside, holds, position⟩
  exact second value inside after later holds position

theorem continuedAlways_parses
    (inner : ∀ entered, entered.position = parser.position → Mirrors alike part part' entered post) :
    Mirrors alike (continuedAlways part) (continuedAlways part') parser fun value after =>
      ∃ inside, post value inside ∧ after.position = inside.position := by
  refine FollowsFrom.bind (Later.refl parser) enterContinuation_parses ?_
  rintro _ entered reached ⟨position, opened⟩
  have deeper : ∀ inside, Later input entered inside → parser.continuationDepth < inside.continuationDepth :=
    fun inside stepped => Nat.lt_of_lt_of_le opened stepped.continuation
  simp only [leaveContinuation_counts]
  refine countDown_parses (inner entered position) (fun inside stepped => ?_) (fun _ => rfl)
    (fun inside valid => ⟨valid.sound, valid.within, valid.brackets⟩) (fun inside stepped => ?_)
    fun value inside stepped holds => ⟨inside, holds, rfl⟩
  · exact Nat.ne_of_gt (Nat.zero_lt_of_lt (deeper inside stepped))
  · have later := Later.trans reached stepped
    exact ⟨later.position, later.offset, later.within, Nat.le_sub_one_of_lt (deeper inside stepped), later.condition, later.chain,
      later.brackets, later.polls⟩

/-! ## Skipping -/

theorem skipInline_parses : Parses alike skipInline parser fun _ after =>
    Skipped input (isInlineIn parser.continuationDepth) parser after := by
  refine .reads rfl rfl ?_
  exact skipWhile_parses

theorem skipLayout_parses : Parses alike skipLayout parser fun _ after => Skipped input isLayout parser after :=
  skipWhile_parses

/-- Skipping, where it does not matter what is skipped. -/
theorem skipInline_bind {rest rest' : ParseM source α}
    (second : ∀ after, Later input parser after → Mirrors alike rest rest' after post) :
    Mirrors alike (skipInline >>= fun _ => rest) (skipInline >>= fun _ => rest') parser post :=
  skipInline_parses.bind fun _ after later _ => second after later

theorem skipLayout_bind {rest rest' : ParseM source α}
    (second : ∀ after, Later input parser after → Mirrors alike rest rest' after post) :
    Mirrors alike (skipLayout >>= fun _ => rest) (skipLayout >>= fun _ => rest') parser post :=
  skipLayout_parses.bind fun _ after later _ => second after later

theorem skipSeparators_parses : Parses alike skipSeparators parser fun _ after =>
    Skipped input isSeparator parser after :=
  skipWhile_parses

/-- A poll in a loop ends it only where the predicate cancels. -/
theorem unlessCancelled {stop go : ParseM source α}
    (first : ∀ polled, Tripped input polled → Parses alike stop polled post)
    (second : ∀ polled, Later input parser polled → Unmoved parser polled → Parses alike go polled post) :
    Parses alike (isCancelled >>= fun answer => if answer = true then stop else go) parser post := by
  refine isCancelled_parses.bind ?_
  rintro answer polled later ⟨unmoved, _, trips⟩
  split
  · next cancelled => exact first polled (trips cancelled)
  · exact second polled later unmoved

theorem documentationTurn_parses {pending : PendingDocumentation source} :
    Parses alike (documentationTurn pending) parser fun turn after =>
      match turn with
      | .again _ => parser.position < after.position
      | .done _ => True := by
  refine .reads rfl rfl ?_
  split
  · exact Parses.pure trivial
  · next token found =>
    refine unlessCancelled (fun _ _ => .pure trivial) ?_
    intro polled _ unmoved
    rw [← unmoved.position] at found
    split
    · refine (advance_one_parses found).bind ?_
      intro _ after _ took
      exact .pure (by grind)
    · exact .pure trivial

theorem skipSeparatorsWithDocumentation_parses :
    Parses alike skipSeparatorsWithDocumentation parser fun _ _ => True := by
  refine iterate_parses (fun _ _ => True) trivial ?_
  intro pending middle _ _
  refine .mono documentationTurn_parses ?_
  rintro (_ | _) after _ turned
  · exact ⟨trivial, turned⟩
  · exact trivial

/-- The token at the position is not the closing delimiter. -/
def Before (input : ParserInput source) (closing : Option Delimiter) (position : Nat) : Prop :=
  ∃ token, input.tokens[position]? = some token ∧ closing.any (fun side => token.kind == .delimiter side) = false

/-- Past a position, or cancelled. -/
def Passed (input : ParserInput source) (position : Nat) (parser : Parser source) : Prop :=
  position < parser.position ∨ Tripped input parser

theorem Passed.later {position : Nat} (passed : Passed input position first)
    (lexed : input.Lexed) (later : Later input first second) : Passed input position second := by
  rcases passed with taken | tripped
  · exact .inl (Nat.lt_of_lt_of_le taken later.position)
  · exact .inr (tripped.later lexed later)

theorem Passed.taken {position : Nat} (passed : Passed input position parser) (calm : input.Calm) :
    position < parser.position := by
  rcases passed with taken | tripped
  · exact taken
  · exact absurd calm tripped.not_calm

/-- Every turn but one that ends the loop takes a token, and so does the first of
all before a token that does not close, unless it is cancelled. -/
theorem synchronizeTurn_parses {closing : Option Delimiter} {delimiters : List Delimiter} :
    Parses alike (synchronizeTurn closing delimiters) parser fun turn after =>
      match turn with
      | .again _ => parser.position < after.position
      | .done _ => Before input closing parser.position → Passed input parser.position after := by
  refine Mirrors.reads rfl rfl ?_
  split
  · next missing =>
    refine Parses.pure ?_
    rintro ⟨token, found, _⟩
    rw [missing] at found
    cases found
  · next token found =>
    refine unlessCancelled (fun _ tripped => Parses.pure fun _ => .inr tripped) ?_
    intro polled _ unmoved
    have here := found
    rw [← unmoved.position] at here
    split
    · next closes =>
      refine Parses.pure ?_
      rintro ⟨token', found', other⟩
      rw [found] at found'
      cases found'
      rw [other, Bool.and_false] at closes
      cases closes
    · split
      · refine (advance_one_parses here).bind ?_
        intro _ after _ took
        exact Parses.pure fun _ => .inl (by grind)
      · refine (advance_one_parses here).bind ?_
        intro _ after _ took
        exact Parses.pure (by grind)

/-- Synchronising before a token that does not close takes it, unless it is cancelled. -/
theorem synchronize_parses {closing : Option Delimiter} :
    Parses alike (synchronize closing) parser fun _ after =>
      Before input closing parser.position → Passed input parser.position after := by
  refine iterate_parses (fun _ middle => Later input parser middle) (.refl parser) ?_
  intro delimiters middle later _
  refine .mono synchronizeTurn_parses ?_
  rintro (next | result) after stepped turned
  · exact ⟨.trans later stepped, turned⟩
  · intro before
    have ordered := later.position
    have ordered' := stepped.position
    by_cases moved : parser.position < middle.position
    · exact .inl (Nat.lt_of_lt_of_le moved ordered')
    · have same : middle.position = parser.position := by omega
      rw [same] at turned
      exact turned before

/-! ## Lists -/

theorem Skips.trans {third : Parser source}
    (one : Skips input accepts first second) (two : Skips input accepts second third) :
    Skips input accepts first third := by
  intro index from_ upto
  by_cases before : index < second.position
  · exact one index from_ before
  · exact two index (Nat.not_lt.mp before) upto

theorem Skips.mono {wider : TokenKind → Bool}
    (skips : Skips input accepts first second) (widens : ∀ kind, accepts kind = true → wider kind = true) :
    Skips input wider first second := by
  intro index from_ upto
  have accepted := skips index from_ upto
  rw [Option.any_eq_true] at accepted ⊢
  obtain ⟨kind, found, accepted⟩ := accepted
  exact ⟨kind, found, widens kind accepted⟩

theorem Took.skips
    (took : Took input first token second) (accepted : accepts token.kind = true) :
    Skips input accepts first second := by
  refine (Skips.refl rfl).step ?_ took.position
  simpa [took.found] using accepted

theorem TookKind.passes
    (took : TookKind input first accepts token second) : Skips input accepts first second :=
  took.skips took.accepted

/-- What stands between the items of a list. -/
def isGap (kind : TokenKind) : Bool := isLayout kind || kind == .operator .comma

/-- A list of items, from an invariant of the items so far that gaps keep. -/
theorem separated_parses {looksFirst looksAgain : Bool} {atEnd : ParseM source Bool} {item item' : ParseM source α}
    (invariant : List α → Parser source → Prop) (holds : invariant [] parser)
    (looks : ∀ state, Answers alike atEnd state fun _ => True)
    (gaps : ∀ values first second, Later input first second → Skips input isGap first second →
      invariant values first → invariant values second)
    (items : ∀ values state, Later input parser state → invariant values state →
      Mirrors alike item item' state fun value after => invariant (values ++ [value]) after ∧ state.position < after.position) :
    Mirrors alike (separated looksFirst looksAgain atEnd item) (separated looksFirst looksAgain atEnd item') parser invariant := by
  refine iterate_parses invariant holds ?_
  intro values middle later sofar
  refine .answers (looks middle) ?_
  intro ended _
  split
  · exact Parses.pure sofar
  refine (items values middle later sofar).bind ?_
  rintro value parsed _ ⟨extended, taken⟩
  refine skipLayout_parses.bind ?_
  intro _ skipped ahead gap
  have layout : Skips input isGap parsed skipped := gap.skips.mono (by simp +contextual [isGap])
  have kept := gaps _ _ _ ahead layout extended
  refine takeIf_bind (.pure kept) ?_
  intro _ after forward took
  have comma : Skips input isGap skipped after := took.skips (by simp [isGap, took.accepted])
  have kept := gaps _ _ _ forward comma kept
  refine skipLayout_parses.bind ?_
  intro _ final ahead' gap'
  have layout : Skips input isGap after final := gap'.skips.mono (by simp +contextual [isGap])
  have kept := gaps _ _ _ ahead' layout kept
  refine .answers (looks final) ?_
  intro ended' _
  split
  · exact Parses.pure kept
  · exact Parses.pure ⟨kept, by grind⟩

/-- A list whose items leave nothing to say. -/
theorem separated_advances {looksFirst looksAgain : Bool} {atEnd : ParseM source Bool}
    {item item' : ParseM source α} (looks : ∀ state, Answers alike atEnd state fun _ => True)
    (items : ∀ state, Later input parser state →
      Mirrors alike item item' state fun _ after => state.position < after.position) :
    Mirrors alike (separated looksFirst looksAgain atEnd item) (separated looksFirst looksAgain atEnd item') parser fun _ _ => True := by
  refine separated_parses (fun _ _ => True) trivial looks (fun _ _ _ _ _ _ => trivial) ?_
  intro _ state later _
  refine .mono (items state later) ?_
  intro _ _ _ taken
  exact ⟨trivial, taken⟩

end Primitives

end Parser

end Opaal.Syntax
