import Opaal.Syntax.Completion

/-!
# Where completion targets are

The active word begins and ends with tokens, and tokens tile the source; so its range can be
sliced and holds the cursor.  What is typed of it so far is its text without quotes and
escapes.
-/

namespace Opaal.Syntax

open Opaal.Text List

/-! ## Plain text is decoded to itself -/

/-- Text without quotes and escapes. -/
def Plain (text : List Char) : Prop := ∀ c ∈ text, c ≠ '\\' ∧ c ≠ '\'' ∧ c ≠ '"'

variable {text : List Char}

theorem decodeBare_plain (plain : Plain text) : decodeBare text = some text := by
  induction text with
  | nil => rfl
  | cons c _ ih =>
    have first := (plain c mem_cons_self).1
    rw [decodeBare, ih fun other listed => plain other (mem_cons_of_mem c listed)]
    · rfl
    · exact fun same _ => absurd same first
    · exact fun _ _ same _ => absurd same first

theorem decodeEscapes_plain (plain : Plain text) {remaining : Nat} (enough : text.length ≤ remaining) :
    decodeEscapes remaining text = some text := by
  induction text generalizing remaining with
  | nil => cases remaining <;> rfl
  | cons c _ ih =>
    cases remaining with
    | zero => cases enough
    | succ =>
      have first := (plain c mem_cons_self).1
      rw [decodeEscapes, ih (fun other listed => plain other (mem_cons_of_mem c listed)) (Nat.le_of_succ_le_succ enough)]
      · rfl
      · intro same
        exact absurd same first

theorem stripFirst_plain {c : Char} (absent : c ∉ text) : stripFirst c text = none := by
  cases text with
  | nil => rfl
  | cons first => exact if_neg fun same : first = c => absent (same ▸ mem_cons_self)

theorem stripLast_plain {c : Char} (absent : c ∉ text) : stripLast c text = none :=
  if_neg fun last => absent (mem_of_getLast? last)

theorem decodePathPrefix_plain (plain : Plain text) (style : PathCompletionStyle) (closed : Bool) :
    decodePathPrefix text style closed = some text := by
  have noSingle : '\'' ∉ text := fun listed => (plain _ listed).2.1 rfl
  have noDouble : '"' ∉ text := fun listed => (plain _ listed).2.2 rfl
  have double : decodeDouble text closed = some text := by
    rw [decodeDouble, stripFirst_plain noDouble]
    dsimp
    rw [stripLast_plain noDouble, Option.getD_none, ite_self]
    exact decodeEscapes_plain plain (Nat.le_refl _)
  cases style with
  | bare => exact decodeBare_plain plain
  | singleQuoted =>
    rw [decodePathPrefix, stripFirst_plain noSingle]
    dsimp
    rw [stripLast_plain noSingle]
    rfl
  | doubleQuoted | doubleQuotedFragment => exact double

/-! ## Tokens in order -/

section Tiles

variable {source : SourceFile} {start stop : Nat} {tokens : List Token}

theorem Tiles.each (tiles : Tiles source start tokens stop) : ∀ token ∈ tokens,
    start ≤ token.span.start ∧ token.span.start < token.span.stop ∧ source.Covers token.span := by
  induction tokens generalizing start with
  | nil => exact fun _ listed => nomatch listed
  | cons first more ih =>
    obtain ⟨starts, nonempty, covers, rest⟩ := tiles
    refine forall_mem_cons.mpr ⟨⟨Nat.le_of_eq starts.symm, starts ▸ nonempty, covers⟩, fun token listed => ?_⟩
    obtain ⟨after, inside, covered⟩ := ih rest token listed
    exact ⟨by omega, inside, covered⟩

theorem Tiles.ordered (tiles : Tiles source start tokens stop) :
    tokens.Pairwise fun left right => left.span.stop ≤ right.span.start := by
  induction tokens generalizing start with
  | nil => exact List.Pairwise.nil
  | cons _ _ ih =>
    obtain ⟨_, _, _, rest⟩ := tiles
    exact pairwise_cons.mpr ⟨fun token listed => (rest.each token listed).1, ih rest⟩

/-- A later token neither starts nor stops before an earlier one. -/
theorem Tiles.monotone (tiles : Tiles source start tokens stop) {first last : Nat} (before : first ≤ last) {left right : Token}
    (here : tokens[first]? = some left) (there : tokens[last]? = some right) :
    left.span.start ≤ right.span.start ∧ left.span.stop ≤ right.span.stop := by
  rcases Nat.eq_or_lt_of_le before with rfl | later
  · rw [here] at there
    cases there
    exact ⟨Nat.le_refl _, Nat.le_refl _⟩
  · obtain ⟨firstInside, rfl⟩ := List.getElem?_eq_some_iff.mp here
    obtain ⟨lastInside, rfl⟩ := List.getElem?_eq_some_iff.mp there
    have apart := pairwise_iff_getElem.mp tiles.ordered first last firstInside lastInside later
    have leftWide := (tiles.each _ (getElem_mem firstInside)).2.1
    have rightWide := (tiles.each _ (getElem_mem lastInside)).2.1
    omega

end Tiles

/-- A slice between boundaries. -/
theorem sliceAt_some {source : List Char} {start stop : Nat} (ordered : start ≤ stop) (startBoundary : IsBoundary source start)
    (stopBoundary : IsBoundary source stop) : ∃ text, sliceAt source start stop = some text := by
  have covers : (SourceFile.mk 0 source).Covers ⟨0, start, stop⟩ := ⟨rfl, ordered, startBoundary, stopBoundary⟩
  obtain ⟨front, middle, back, textEq, starts, stops, _⟩ := covers.split
  dsimp only at starts stops textEq
  refine ⟨middle, ?_⟩
  rw [textEq, append_assoc, stops, ← starts]
  exact sliceAt_parts front middle back

/-! ## The active word -/

theorem firstComponent_le (tokens : List Token) (importGroup : Bool) (index : Nat) : firstComponent tokens importGroup index ≤ index := by
  induction index with
  | zero => exact Nat.le_refl 0
  | succ _ ih =>
    rw [firstComponent]
    split_ifs
    · exact Nat.le_succ_of_le ih
    · exact Nat.le_refl _

theorem lastComponent_spec (tokens : List Token) (importGroup : Bool) (remaining : Nat) {index : Nat} (inside : index < tokens.length) :
    index ≤ lastComponent tokens importGroup remaining index ∧ lastComponent tokens importGroup remaining index < tokens.length := by
  induction remaining generalizing index with
  | zero => exact ⟨Nat.le_refl _, inside⟩
  | succ _ ih =>
    rw [lastComponent]
    split_ifs with further
    · rw [Bool.and_eq_true, touches] at further
      have next : index + 1 < tokens.length := by
        by_contra beyond
        rw [List.getElem?_eq_none (Nat.not_lt.mp beyond)] at further
        cases found : tokens[index]? with
        | none | some =>
          rw [found] at further
          exact absurd further.1 Bool.false_ne_true
      obtain ⟨after, within⟩ := ih next
      exact ⟨Nat.le_of_succ_le after, within⟩
    · exact ⟨Nat.le_refl _, inside⟩

/-- A word around the cursor, on boundaries, and what is typed of it. -/
structure WordPlaced (source : List Char) (cursor : Nat) (word : ActiveWord) : Prop where
  before : word.start ≤ cursor
  after : cursor ≤ word.stop
  startBoundary : IsBoundary source word.start
  stopBoundary : IsBoundary source word.stop
  text : ∃ raw closed, sliceAt source word.start cursor = some raw ∧ decodePathPrefix raw word.style closed = some word.text

section Word

variable {source : List Char} {tokens : List Token} (tiles : Tiles ⟨0, source⟩ 0 tokens (width source)) {cursor : Nat}

include tiles

theorem wordAt_placed (boundary : IsBoundary source cursor) (importGroup : Bool) {index : Nat} {token : Token}
    (found : tokens[index]? = some token) (before : token.span.start ≤ cursor) (after : cursor ≤ token.span.stop) :
    ∃ result, wordAt tokens source cursor importGroup index = some result ∧ ∀ word, result = some word → WordPlaced source cursor word := by
  have inside : index < tokens.length := (List.getElem?_eq_some_iff.mp found).1
  have firstLe := firstComponent_le tokens importGroup index
  obtain ⟨lastGe, lastInside⟩ := lastComponent_spec tokens importGroup tokens.length inside
  have firstIs : tokens[firstComponent tokens importGroup index]? = some tokens[firstComponent tokens importGroup index] :=
    List.getElem?_eq_getElem (Nat.lt_of_le_of_lt firstLe inside)
  have lastIs : tokens[lastComponent tokens importGroup tokens.length index]? =
      some tokens[lastComponent tokens importGroup tokens.length index] := List.getElem?_eq_getElem lastInside
  generalize tokens[firstComponent tokens importGroup index] = firstToken at firstIs
  generalize tokens[lastComponent tokens importGroup tokens.length index] = lastToken at lastIs
  have starts := (tiles.monotone firstLe firstIs found).1
  have stops := (tiles.monotone lastGe found lastIs).2
  have firstCovers := (tiles.each firstToken (mem_of_getElem? firstIs)).2.2
  have lastCovers := (tiles.each lastToken (mem_of_getElem? lastIs)).2.2
  obtain ⟨raw, sliced⟩ : ∃ raw, sliceAt source firstToken.span.start cursor = some raw :=
    sliceAt_some (Nat.le_trans starts before) firstCovers.startBoundary boundary
  rw [wordAt]
  rw [firstIs, lastIs]
  dsimp
  rw [sliced]
  refine ⟨_, rfl, fun word same => ?_⟩
  rw [Option.map_eq_some_iff] at same
  obtain ⟨_, decoded, rfl⟩ := same
  exact ⟨Nat.le_trans starts before, Nat.le_trans after stops, firstCovers.startBoundary, lastCovers.stopBoundary,
    raw, _, sliced, decoded⟩

theorem activeWordAt_placed (boundary : IsBoundary source cursor) (importGroup : Bool) :
    ∃ result, activeWordAt tokens source cursor importGroup = some result ∧
      ∀ word, result = some word → WordPlaced source cursor word := by
  rw [activeWordAt]
  split
  · rename_i index containing
    obtain ⟨inside, holds, _⟩ := List.findIdx?_eq_some_iff_getElem.mp containing
    simp only [Bool.and_eq_true, decide_eq_true_eq] at holds
    exact wordAt_placed tiles boundary importGroup (List.getElem?_eq_getElem inside) holds.1.1 holds.1.2
  · split_ifs
    · exact ⟨none, rfl, fun _ same => nomatch same⟩
    · refine ⟨_, rfl, fun word same => ?_⟩
      cases same
      refine ⟨Nat.le_refl _, Nat.le_refl _, boundary, boundary, [], false, ?_, rfl⟩
      obtain ⟨front, back, rfl, rfl⟩ := boundary
      exact sliceAt_parts front [] back

end Word

/-! ## The context -/

section Context

variable {source : List Char} {tokens : List Token} (tiles : Tiles ⟨0, source⟩ 0 tokens (width source))

omit tiles in
/-- A word ends where it starts to be followed or where one of its tokens stops. -/
theorem wordEnd_spec (stop : Nat) (more : List Token) (wide : ∀ token ∈ more, token.span.start < token.span.stop) :
    stop ≤ wordEnd stop more ∧ (wordEnd stop more = stop ∨ ∃ token ∈ more, wordEnd stop more = token.span.stop) := by
  induction more generalizing stop with
  | nil => exact ⟨Nat.le_refl _, .inl rfl⟩
  | cons token more ih =>
    rw [wordEnd]
    split_ifs with ends
    · exact ⟨Nat.le_refl _, .inl rfl⟩
    · rw [Bool.or_eq_true, not_or, decide_eq_true_eq, not_not] at ends
      have nonempty := wide token mem_cons_self
      obtain ⟨after, same | ⟨last, listed, same⟩⟩ := ih token.span.stop fun other listed => wide other (mem_cons_of_mem token listed)
      · exact ⟨by omega, .inr ⟨token, mem_cons_self, same⟩⟩
      · exact ⟨by omega, .inr ⟨last, mem_cons_of_mem token listed, same⟩⟩

include tiles

variable {stage : List Token} {active : ActiveWord} {style : PathCompletionStyle} {globPattern interpolated : Bool}

/-- The command of a stage can be sliced. -/
theorem firstWord_slices (among : stage ⊆ tokens) {headEnd : Nat} (ends : firstWordEnd stage = some headEnd) :
    ∃ first command, stage.head? = some first ∧ sliceAt source first.span.start headEnd = some command := by
  cases stage with
  | nil => cases ends
  | cons first more =>
    rw [firstWordEnd] at ends
    split at ends
    · cases ends
      obtain ⟨_, wide, covers⟩ := tiles.each first (among mem_cons_self)
      have each : ∀ token ∈ more, token ∈ tokens := fun token listed => among (mem_cons_of_mem first listed)
      obtain ⟨after, where_⟩ := wordEnd_spec first.span.stop more fun token listed => (tiles.each token (each token listed)).2.1
      have boundary : IsBoundary source (wordEnd first.span.stop more) := by
        rcases where_ with same | ⟨last, listed, same⟩
        · rw [same]
          exact covers.stopBoundary
        · rw [same]
          exact (tiles.each last (each last listed)).2.2.stopBoundary
      have ordered : first.span.start ≤ wordEnd first.span.stop more := by omega
      obtain ⟨command, sliced⟩ := sliceAt_some ordered covers.startBoundary boundary
      exact ⟨first, command, rfl, sliced⟩
    · cases ends

theorem classifyContext_some (among : stage ⊆ tokens) (active : ActiveWord) :
    ∃ context, classifyContext source tokens stage active = some context := by
  rw [classifyContext]
  split
  · exact ⟨_, rfl⟩
  · dsimp only
    generalize (stage.head?.any fun token => token.kind = .operator .caret && token.span.stop = active.start) = forcedExternal
    have inStage : (if forcedExternal then stage.drop 1 else stage) ⊆ tokens := by
      split
      · exact fun token listed => among (mem_of_mem_drop listed)
      · exact among
    generalize (if forcedExternal then stage.drop 1 else stage) = headTokens at inStage
    cases ends : firstWordEnd headTokens with
    | none => exact ⟨_, rfl⟩
    | some =>
      dsimp only
      split
      · exact ⟨_, rfl⟩
      · obtain ⟨_, _, head, sliced⟩ := firstWord_slices tiles inStage ends
        rw [head]
        dsimp
        rw [sliced]
        split
        · exact ⟨_, rfl⟩
        · split
          · exact ⟨_, rfl⟩
          · exact ⟨_, rfl⟩

omit tiles in
theorem headContext_style {forcedExternal : Bool}
    (path : headContext source tokens active forcedExternal = .path style globPattern interpolated) : active.style = style := by
  rw [headContext] at path
  split at path
  · cases path
    rfl
  · cases path

omit tiles in
/-- A path is completed in the style of its word. -/
theorem classifyContext_style
    (path : classifyContext source tokens stage active = some (.path style globPattern interpolated)) : active.style = style := by
  rw [classifyContext] at path
  split at path
  · cases path
    rfl
  · dsimp only at path
    split at path
    · exact headContext_style (Option.some.inj path)
    · split at path
      · exact headContext_style (Option.some.inj path)
      · simp only [Option.bind_eq_bind, Option.bind_eq_some_iff] at path
        obtain ⟨_, _, _, _, path⟩ := path
        split at path
        · cases path
        · split at path
          · cases path
            rfl
          · cases path

theorem targetContext_some (importGroup : Bool) (active : ActiveWord) :
    ∃ context, targetContext source tokens importGroup active = some context := by
  have prior : significantBefore tokens active.start ⊆ tokens := fun token listed => (mem_filter.mp listed).1
  have stage : currentStage (significantBefore tokens active.start) ⊆ tokens := by
    intro token listed
    rw [currentStage, mem_reverse] at listed
    exact prior (mem_reverse.mp ((List.takeWhile_prefix _).subset listed))
  rw [targetContext]
  split
  · exact ⟨_, rfl⟩
  · split
    · exact ⟨_, rfl⟩
    · split
      · exact ⟨_, rfl⟩
      · exact classifyContext_some tiles stage active

omit tiles in
theorem targetContext_style {importGroup : Bool}
    (path : targetContext source tokens importGroup active = some (.path style globPattern interpolated)) : active.style = style := by
  rw [targetContext] at path
  split at path
  · cases path
    rfl
  · split at path
    · cases path
    · split at path
      · cases path
      · exact classifyContext_style path

end Context

/-- The target of every cursor: without a panic, in a range of the source that holds the
cursor, with the text up to the cursor decoded in the style of the word. -/
theorem completionTarget_placed (source : List Char) (cursor : Nat) :
    ∃ result, completionTarget source cursor = some result ∧ ∀ target, result = some target →
      target.start ≤ cursor ∧ cursor ≤ target.stop ∧ target.stop ≤ width source ∧
      IsBoundary source target.start ∧ IsBoundary source target.stop ∧
      ∃ text style closed, sliceAt source target.start cursor = some text ∧
        decodePathPrefix text style closed = some target.prefix_ ∧ (Plain text → target.prefix_ = text) ∧
        ∀ spelled globPattern interpolated, target.context = .path spelled globPattern interpolated → style = spelled := by
  rw [completionTarget]
  split_ifs with boundary
  · obtain ⟨tokens, lexed, tiles, _⟩ := (lexOpaal_lossless ⟨0, source⟩).1
    rw [lexed]
    dsimp
    generalize inImportGroup (tokens.takeWhile fun token => token.span.start < cursor) = importGroup
    obtain ⟨result, found, placed⟩ := activeWordAt_placed tiles boundary importGroup
    rw [found]
    cases result with
    | none => exact ⟨none, rfl, fun _ same => nomatch same⟩
    | some active =>
      obtain ⟨_, classified⟩ := targetContext_some tiles importGroup active
      dsimp
      rw [classified]
      refine ⟨_, rfl, fun target same => ?_⟩
      cases same
      have word := placed active rfl
      obtain ⟨raw, closed, sliced, decoded⟩ := word.text
      refine ⟨word.before, word.after, word.stopBoundary.le_width, word.startBoundary, word.stopBoundary,
        raw, active.style, closed, sliced, decoded, fun plain => ?_, fun spelled globPattern interpolated path => ?_⟩
      · rw [decodePathPrefix_plain plain] at decoded
        exact (Option.some.inj decoded).symm
      · exact targetContext_style (classified.trans (congrArg some path))
  · exact ⟨none, rfl, fun _ same => nomatch same⟩

/-- The opening quote is in the range and not in the prefix. -/
theorem quote_is_decoded :
    ∃ target, completionTarget "\"a".toList 2 = some (some target) ∧
      sliceAt "\"a".toList target.start 2 = some "\"a".toList ∧ target.prefix_ = "a".toList ∧
      sliceAt "\"a".toList target.start 2 ≠ some target.prefix_ :=
  ⟨⟨.path .doubleQuoted false false, 0, 2, "a".toList⟩, by decide +kernel, by decide +kernel, rfl, by decide +kernel⟩

end Opaal.Syntax
