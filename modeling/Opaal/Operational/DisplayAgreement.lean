import Opaal.Operational.DisplayWrites

/-!
# The bounded printer and the display of values

The bounded printer writes what the display form of a value is, and returns when the cap, the budget
and the depth are enough, except for one kind of values.  A path is cut into blocks, and a cut steps
back over at most three bytes that may stand inside an encoding.  Behind a scalar such bytes may be
there without belonging to it, so the cut can end up inside of that scalar.
-/

namespace Opaal.Operational.Display

open Opaal.Machine List
open Opaal.Runtime
open Opaal.Text

/-! ## Cuts of paths -/

/-- Where the cut is when four bytes in a row may stand inside an encoding. -/
def shortBlock : Nat := block - 3

/-- Some block of a path ends inside a scalar: the last byte of a whole block, the two before it and
the one behind it only stand inside encodings, and the first of the four belongs to a scalar
that starts in front of them. -/
inductive CutsScalar : List UInt8 → Prop
  | here {path : List UInt8} (continuing : ∀ offset < 4, (path[shortBlock + offset]?).any continues = true)
      (divides : Divides (path.take shortBlock) (path.drop shortBlock)) : CutsScalar path
  | later {path : List UInt8} (long : block < path.length) (cuts : CutsScalar (path.drop (pathBlock path))) :
      CutsScalar path

theorem continues_iff (byte : UInt8) : continues byte = true ↔ IsContinuation byte := by
  unfold continues IsContinuation
  rw [Bool.and_eq_true, decide_eq_true_iff, decide_eq_true_iff]
  omega

variable {path : List UInt8}

/-- A cut through a scalar is in front of a byte that may stand inside an encoding. -/
theorem divides_continues {stop : Nat} (divides : Divides (path.take stop) (path.drop stop)) :
    (path[stop]?).any continues = true := by
  obtain ⟨byte, _, tail, continuation⟩ := divides.continuation
  have found : path[stop]? = some byte := by
    rw [← List.head?_drop, tail, List.head?_cons]
  rw [found, Option.any_some]
  exact (continues_iff byte).mpr continuation

theorem pathBlock_pos (nonempty : path ≠ []) : 0 < pathBlock path := by
  have positive := length_pos_iff.mpr nonempty
  unfold pathBlock block
  simp only [stepBack]
  split
  · grind
  · omega

theorem pathBlock_short (short : path.length ≤ block) : pathBlock path = path.length := by
  unfold pathBlock
  rw [Nat.min_eq_left short]
  simp

/-- The cut of a long path: it is behind three steps back, or in front of a byte that starts anew. -/
theorem pathBlock_long (long : block < path.length) :
    (pathBlock path = shortBlock ∧ ∀ offset, 0 < offset → offset < 4 → (path[shortBlock + offset]?).any continues = true) ∨
      (path[pathBlock path]?).any continues = false ∧ ∃ offset, 0 < offset ∧ offset < 4 ∧ pathBlock path = shortBlock + offset := by
  have stops : pathBlock path = stepBack path 3 block := by
    unfold pathBlock
    rw [Nat.min_eq_right (Nat.le_of_lt long), if_pos long]
  rw [stops]
  simp only [stepBack]
  by_cases third : (path[block]?).any continues = true
  · rw [if_pos third]
    by_cases second : (path[block - 1]?).any continues = true
    · rw [if_pos second]
      by_cases first : (path[block - 1 - 1]?).any continues = true
      · rw [if_pos first]
        refine .inl ⟨rfl, ?_⟩
        intro offset positive small
        have offsets : offset = 1 ∨ offset = 2 ∨ offset = 3 := by omega
        rcases offsets with rfl | rfl | rfl
        · exact first
        · exact second
        · exact third
      · rw [if_neg first]
        exact .inr ⟨Bool.eq_false_iff.mpr first, 1, by decide, by decide, rfl⟩
    · rw [if_neg second]
      exact .inr ⟨Bool.eq_false_iff.mpr second, 2, by decide, by decide, rfl⟩
  · rw [if_neg third]
    exact .inr ⟨Bool.eq_false_iff.mpr third, 3, by decide, by decide, rfl⟩

/-- The cut of a long path divides a scalar only behind three steps back. -/
theorem divides_pathBlock_iff (long : block < path.length) :
    Divides (path.take (pathBlock path)) (path.drop (pathBlock path)) ↔
      (∀ offset < 4, (path[shortBlock + offset]?).any continues = true) ∧
        Divides (path.take shortBlock) (path.drop shortBlock) := by
  constructor
  · intro divides
    have continuing := divides_continues divides
    rcases pathBlock_long long with ⟨stop, others⟩ | ⟨anew, _⟩
    · rw [stop] at divides continuing
      refine ⟨?_, divides⟩
      intro offset small
      rcases Nat.eq_zero_or_pos offset with rfl | positive
      · exact continuing
      · exact others offset positive small
    · rw [continuing] at anew
      contradiction
  · rintro ⟨continuing, divides⟩
    rcases pathBlock_long long with ⟨stop, _⟩ | ⟨anew, offset, _, small, stop⟩
    · rwa [stop]
    · rw [stop, continuing offset small] at anew
      contradiction

theorem cutsScalar_iff (path : List UInt8) :
    CutsScalar path ↔
      Divides (path.take (pathBlock path)) (path.drop (pathBlock path)) ∨ CutsScalar (path.drop (pathBlock path)) := by
  rcases Nat.lt_or_ge block path.length with long | short
  · rw [divides_pathBlock_iff long]
    constructor
    · intro cuts
      cases cuts with
      | here continuing divides => exact .inl ⟨continuing, divides⟩
      | later _ cuts => exact .inr cuts
    · rintro (⟨continuing, divides⟩ | cuts)
      · exact .here continuing divides
      · exact .later long cuts
  · have missing : ¬CutsScalar [] := by
      intro cuts
      cases cuts with
      | here continuing => simpa using continuing 0 (by decide)
      | later long => simp at long
    have dropped : path.drop (pathBlock path) = [] := by
      rw [pathBlock_short short, drop_length]
    rw [dropped]
    constructor
    · intro cuts
      cases cuts with
      | here continuing divides =>
        have last := continuing 3 (by decide)
        rw [List.getElem?_eq_none (show path.length ≤ shortBlock + 3 from short)] at last
        contradiction
      | later long cuts => omega
    · rintro (divides | cuts)
      · obtain ⟨_, _, some, _⟩ := divides.continuation
        contradiction
      · exact absurd cuts missing

/-! ## Renderings -/

/-- The program writes the text, or something longer when `cut` holds; it may return when `able` holds. -/
def Renders (program : Printer) (able cut : Prop) (whole : List Char) : Prop :=
  ∃ pieces, Prints meter program able (bytes pieces) ∧ Stretched cut whole pieces

namespace Renders

variable {program rest : Printer} {able able' cut cut' : Prop} {whole whole' text : List Char}

theorem plain (prints : Prints meter program able (bytes text)) : Renders program able False text :=
  ⟨text, prints, .refl text⟩

theorem nothing : Renders (pure ()) True False [] := plain .nothing

theorem congr (renders : Renders program able cut whole) (may : able ↔ able') (cuts : cut ↔ cut') (same : whole = whole') :
    Renders program able' cut' whole' := by
  subst same
  obtain ⟨pieces, prints, stretched⟩ := renders
  exact ⟨pieces, prints.congr may rfl, stretched.congr cuts⟩

theorem seq (first : Renders program able cut whole) (second : Renders rest able' cut' whole') :
    Renders (program >>= fun _ => rest) (able ∧ able') (cut ∨ cut') (whole ++ whole') := by
  obtain ⟨pieces, prints, stretched⟩ := first
  obtain ⟨pieces', prints', stretched'⟩ := second
  exact ⟨pieces ++ pieces', (prints.seq prints').congr .rfl (bytes_append _ _).symm, stretched.append stretched'⟩

/-- A charge in front. -/
theorem charged (charge : Prints meter program able []) (renders : Renders rest able' cut whole) :
    Renders (program >>= fun _ => rest) (able ∧ able') cut whole := by
  obtain ⟨pieces, prints, stretched⟩ := renders
  exact ⟨pieces, charge.seq prints, stretched⟩

/-- A text in front. -/
theorem front (prints : Prints meter program True (bytes text)) (renders : Renders rest able cut whole) :
    Renders (program >>= fun _ => rest) able cut (text ++ whole) :=
  ((plain prints).seq renders).congr (iff_of_eq (true_and able)) (iff_of_eq (false_or cut)) rfl

/-- A text behind. -/
theorem back (renders : Renders program able cut whole) (prints : Prints meter rest True (bytes text)) :
    Renders (program >>= fun _ => rest) able cut (whole ++ text) :=
  (renders.seq (plain prints)).congr (iff_of_eq (and_true able)) (iff_of_eq (or_false cut)) rfl

/-- Items in brackets, when there are any. -/
theorem bracketed {α : Type} (items : List α) (renders : Renders program able cut whole) (empty : items = [] → able ∧ ¬cut)
    (opening closing : List Char) :
    Renders (when (!items.isEmpty) (do writeStr opening; program; writeStr closing)) able cut
      (if items.isEmpty then [] else opening ++ whole ++ closing) := by
  cases items with
  | nil =>
    obtain ⟨may, kept⟩ := empty rfl
    exact nothing.congr (by simp [may]) (by simp [kept]) rfl
  | cons =>
    exact (front (prints_writeStr opening) (renders.back (prints_writeStr closing))).congr .rfl .rfl
      (append_assoc _ _ _).symm

end Renders

theorem renders_pathFrom {passes : Nat} (enough : path.length ≤ passes) :
    Renders (pathFrom passes path) True (CutsScalar path) (writeUtf8WithInvalidBytes path).flatten := by
  have nothing : Renders (pure ()) True (CutsScalar []) [] := by
    refine Renders.nothing.congr .rfl ?_ rfl
    constructor
    · exact False.elim
    · intro cuts
      cases cuts with
      | here continuing => simpa using continuing 0 (by decide)
      | later long => simp at long
  induction passes generalizing path with
  | zero =>
    cases eq_nil_of_length_eq_zero (Nat.le_zero.mp enough)
    exact nothing
  | succ passes ih =>
    cases path with
    | nil => exact nothing
    | cons byte path =>
      have nonempty : byte :: path ≠ [] := cons_ne_nil byte path
      have positive := pathBlock_pos nonempty
      obtain ⟨pieces, prints, stretched⟩ := ih (by
        rw [length_drop]
        omega : ((byte :: path).drop (pathBlock (byte :: path))).length ≤ passes)
      have cut := lossy_cut length_scalarText_lt ((byte :: path).take (pathBlock (byte :: path)))
        ((byte :: path).drop (pathBlock (byte :: path)))
      rw [writeUtf8WithInvalidBytes_flatten] at stretched
      rw [take_append_drop] at cut
      refine ⟨(writeUtf8WithInvalidBytes ((byte :: path).take (pathBlock (byte :: path)))).flatten ++ pieces, ?_, ?_⟩
      · refine ((prints_input _).seq ((prints_write _).seq prints)).congr (by simp) ?_
        rw [nil_append, bytes_append]
      · rw [writeUtf8WithInvalidBytes_flatten, writeUtf8WithInvalidBytes_flatten]
        exact (cut.trans (stretched.prepend _)).congr (cutsScalar_iff _).symm

/-! ## The parts of a value -/

mutual

/-- At which depths the parts of a type are. -/
def typeDepths (depth : Nat) : ValueType → List Nat
  | .list element => depth :: typeDepths (depth + 1) element
  | .nominal _ arguments => depth :: argumentDepths (depth + 1) arguments
  | _ => [depth]

def argumentDepths (depth : Nat) : List ValueType → List Nat
  | [] => []
  | argument :: arguments => typeDepths depth argument ++ argumentDepths depth arguments

end

section Parts

variable {F C : Type}

mutual

/-- At which depths the parts of a value are, its types and the stages of its statuses included. -/
def depths (depth : Nat) : Value F C → List Nat
  | .list values => depth :: valueDepths (depth + 1) values
  | .record entries => depth :: entryDepths (depth + 1) entries
  | .nominalRecord _ typeArguments fields =>
    depth :: (argumentDepths (depth + 1) typeArguments ++ entryDepths (depth + 1) fields)
  | .variant _ typeArguments _ payload =>
    depth :: (argumentDepths (depth + 1) typeArguments ++ valueDepths (depth + 1) payload)
  | .table _ rows => depth :: rowDepths (depth + 1) rows
  | .status status => depth :: status.stages.map fun _ => depth + 1
  | _ => [depth]

def valueDepths (depth : Nat) : List (Value F C) → List Nat
  | [] => []
  | value :: values => depths depth value ++ valueDepths depth values

def entryDepths (depth : Nat) : List (String × Value F C) → List Nat
  | [] => []
  | (_, value) :: entries => depths depth value ++ entryDepths depth entries

def rowDepths (depth : Nat) : List (List (Value F C)) → List Nat
  | [] => []
  | row :: rows => valueDepths depth row ++ rowDepths depth rows

end

mutual

/-- A value and the values inside of it. -/
def inside : Value F C → List (Value F C)
  | .list values => .list values :: insideValues values
  | .record entries => .record entries :: insideEntries entries
  | .nominalRecord id typeArguments fields => .nominalRecord id typeArguments fields :: insideEntries fields
  | .variant id typeArguments variantName payload =>
    .variant id typeArguments variantName payload :: insideValues payload
  | .table columns rows => .table columns rows :: insideRows rows
  | value => [value]

def insideValues : List (Value F C) → List (Value F C)
  | [] => []
  | value :: values => inside value ++ insideValues values

def insideEntries : List (String × Value F C) → List (Value F C)
  | [] => []
  | (_, value) :: entries => inside value ++ insideEntries entries

def insideRows : List (List (Value F C)) → List (Value F C)
  | [] => []
  | row :: rows => insideValues row ++ insideRows rows

end

/-- No error, no callable and no value that stands for something outside of its data. -/
def supported : Value F C → Bool
  | .error _ => false
  | .callable _ _ => false
  | .nominalRecord id _ _ => !isOpaqueOperationalNominal id
  | _ => true

/-- The printer supports the parts, and none is too deep. -/
structure Shown (parts : List (Value F C)) (depths : List Nat) : Prop where
  supported : ∀ part ∈ parts, supported part = true
  shallow : ∀ depth ∈ depths, depth ≤ maxDepth

/-- Some path among the parts is cut inside a scalar. -/
def CutsPath (parts : List (Value F C)) : Prop := ∃ path, .path path ∈ parts ∧ CutsScalar path.bytes

variable {parts parts' : List (Value F C)} {depths : List Nat} {part : Value F C}

theorem shown_append {depths' : List Nat} :
    Shown (parts ++ parts') (depths ++ depths') ↔ Shown parts depths ∧ Shown parts' depths' := by
  constructor
  · rintro ⟨known, shallow⟩
    rw [forall_mem_append] at known shallow
    exact ⟨⟨known.1, shallow.1⟩, known.2, shallow.2⟩
  · rintro ⟨first, second⟩
    exact ⟨forall_mem_append.mpr ⟨first.supported, second.supported⟩,
      forall_mem_append.mpr ⟨first.shallow, second.shallow⟩⟩

theorem shown_nil : Shown ([] : List (Value F C)) [] := ⟨by simp, by simp⟩

/-- A value among the parts. -/
theorem shown_cons {depth : Nat} :
    Shown (part :: parts) (depth :: depths) ↔ depth ≤ maxDepth ∧ Display.supported part = true ∧ Shown parts depths := by
  constructor
  · rintro ⟨known, shallow⟩
    rw [forall_mem_cons] at known shallow
    exact ⟨shallow.1, known.1, known.2, shallow.2⟩
  · rintro ⟨level, known, others⟩
    exact ⟨forall_mem_cons.mpr ⟨known, others.supported⟩, forall_mem_cons.mpr ⟨level, others.shallow⟩⟩

/-- Depths of what is no value. -/
theorem shown_depths {more : List Nat} :
    Shown parts (more ++ depths) ↔ (∀ depth ∈ more, depth ≤ maxDepth) ∧ Shown parts depths := by
  constructor
  · rintro ⟨known, shallow⟩
    rw [forall_mem_append] at shallow
    exact ⟨shallow.1, known, shallow.2⟩
  · rintro ⟨level, others⟩
    exact ⟨others.supported, forall_mem_append.mpr ⟨level, others.shallow⟩⟩

theorem not_cutsPath_nil : ¬CutsPath ([] : List (Value F C)) := by
  rintro ⟨path, member, _⟩
  contradiction

theorem cutsPath_append :
    CutsPath (parts ++ parts') ↔ CutsPath parts ∨ CutsPath parts' := by
  constructor
  · rintro ⟨path, member, cuts⟩
    rcases mem_append.mp member with member | member
    · exact .inl ⟨path, member, cuts⟩
    · exact .inr ⟨path, member, cuts⟩
  · rintro (⟨path, member, cuts⟩ | ⟨path, member, cuts⟩)
    · exact ⟨path, mem_append_left _ member, cuts⟩
    · exact ⟨path, mem_append_right _ member, cuts⟩

/-- Only a path itself is cut. -/
theorem cutsPath_cons (other : ∀ path, .path path ≠ part) : CutsPath (part :: parts) ↔ CutsPath parts := by
  constructor
  · rintro ⟨path, member, cuts⟩
    rcases mem_cons.mp member with same | member
    · exact absurd same (other path)
    · exact ⟨path, member, cuts⟩
  · rintro ⟨path, member, cuts⟩
    exact ⟨path, mem_cons_of_mem _ member, cuts⟩

end Parts

/-! ## Types and statuses -/

mutual

theorem renders_valueType (depth : Nat) (type : ValueType) :
    Renders (valueType depth type) (∀ level ∈ typeDepths depth type, level ≤ maxDepth) False type.display := by
  -- The types without parts.
  have scalar : ∀ {program : Printer} {content : List Char}, Prints meter program True (bytes content) →
      Renders (node depth >>= fun _ => program) (∀ level ∈ [depth], level ≤ maxDepth) False content := by
    intro program content prints
    exact (Renders.charged (prints_node depth) (.plain prints)).congr (by simp) Iff.rfl rfl
  cases type with
  | list element =>
    have inner := renders_valueType (depth + 1) element
    refine (Renders.charged (prints_node depth) (.front (prints_writeStr _) (inner.back (prints_writeStr _)))).congr
      ?_ Iff.rfl ?_
    · rw [typeDepths, forall_mem_cons]
    · show _ = "List[".toList ++ element.display ++ [']']
      rw [append_assoc]
  | nominal id arguments =>
    have inner := (renders_typesFrom 0 (depth + 1) arguments).bracketed arguments
      (by rintro rfl; simp [argumentDepths]) ['['] [']']
    refine (Renders.charged (prints_node depth) (.front (prints_text id.name.toList false) inner)).congr ?_ Iff.rfl ?_
    · rw [typeDepths, forall_mem_cons]
    · rfl
  | typeParameter name => exact scalar (prints_text name.toList false)
  | _ => exact scalar (prints_writeStr _)

theorem renders_typesFrom (index depth : Nat) (arguments : List ValueType) :
    Renders (typesFrom index depth arguments) (∀ level ∈ argumentDepths depth arguments, level ≤ maxDepth) False
      (ValueType.displayFrom index arguments) := by
  cases arguments with
  | nil => exact Renders.nothing.congr (by simp [argumentDepths]) Iff.rfl rfl
  | cons argument arguments =>
    have first := renders_valueType depth argument
    have others := renders_typesFrom (index + 1) depth arguments
    refine (Renders.front (prints_write (separator index ", ")) (first.seq others)).congr ?_ (by simp) ?_
    · rw [argumentDepths, forall_mem_append]
    · rw [ValueType.displayFrom, append_assoc]

end

theorem renders_types (arguments : List ValueType) (depth : Nat) :
    Renders (types arguments depth) (∀ level ∈ argumentDepths depth arguments, level ≤ maxDepth) False
      (writeTypeArguments arguments) :=
  (renders_typesFrom 0 depth arguments).bracketed arguments (by rintro rfl; simp [argumentDepths]) ['['] [']']

variable (completion : Completion)

theorem renders_debugCompletion :
    Renders (debugCompletion completion) True False (Runtime.debugCompletion completion) := by
  unfold debugCompletion Runtime.debugCompletion
  cases completion with
  | exit =>
    refine (Renders.front (prints_write _) (.front (prints_writeStr _) (.plain (prints_writeStr _)))).congr
      Iff.rfl Iff.rfl ?_
    exact (append_assoc _ _ _).symm
  | signaled signal =>
    have name : Renders (debugName signal.name) True False (Runtime.debugName signal.name) := by
      cases signal.name with
      | some name => exact .plain (prints_quoted name.toList)
      | none => exact .plain (prints_writeStr _)
    refine (Renders.front (prints_write _) (.front (prints_writeStr _) (.charged prints_step (.front (prints_writeStr _)
      (.front (prints_write _) (.front (prints_writeStr _) (name.back (prints_writeStr _)))))))).congr
      (by simp) Iff.rfl ?_
    simp

theorem renders_debugStatus {stages : Printer} {able : Prop} {text : List Char} (renders : Renders stages able False text)
    (duration : Duration) :
    Renders (debugStatus completion stages duration) able False (Runtime.debugStatus completion text duration) := by
  unfold debugStatus Runtime.debugStatus
  refine (Renders.front (prints_writeStr _) ((renders_debugCompletion completion).seq (.front (prints_writeStr _)
    (renders.back (prints_write _))))).congr (by simp) (by simp only [or_self]) ?_
  simp

theorem renders_stagesFrom (index depth : Nat) (stages : List StageStatus) :
    Renders (stagesFrom index depth stages) (∀ level ∈ stages.map fun _ => depth + 1, level ≤ maxDepth) False
      (debugStages index stages) := by
  induction stages generalizing index with
  | nil => exact Renders.nothing.congr (by simp) Iff.rfl rfl
  | cons stage _ ih =>
    have body := renders_debugStatus stage.completion .nothing stage.duration
    refine (Renders.front (prints_write (separator index ", ")) (.charged (prints_node (depth + 1))
      (body.seq (ih (index + 1))))).congr (by simp) (by simp) ?_
    rw [debugStages, append_assoc]
    rfl

theorem prints_inputs (lengths : List Nat) : Prints meter (inputs lengths) True [] := by
  induction lengths with
  | nil => exact .nothing
  | cons length _ ih => exact ((prints_input length).seq ih).congr (by simp) rfl

theorem prints_completionMetadata : Prints meter (completionMetadata completion) True [] := by
  cases completion with
  | exit => exact .nothing
  | signaled signal =>
    have name : Prints meter (nameMetadata signal.name) True [] := by
      cases signal.name with
      | some => exact prints_inputs _
      | none => exact .nothing
    exact (prints_step.seq name).congr (by simp) rfl

theorem prints_stagesMetadata (depth : Nat) (stages : List StageStatus) :
    Prints meter (stagesMetadata depth stages) (∀ level ∈ stages.map fun _ => depth + 1, level ≤ maxDepth) [] := by
  induction stages with
  | nil => exact Prints.nothing.congr (by simp) rfl
  | cons stage _ ih =>
    exact ((prints_node (depth + 1)).seq ((prints_completionMetadata stage.completion).seq ih)).congr (by simp) rfl

theorem renders_displayCompletion (status : Status) :
    Renders (displayCompletion status.completion) True False status.display := by
  unfold displayCompletion Status.display
  cases status.completion with
  | exit =>
    simp only
    split
    · exact .plain (prints_writeStr _)
    · exact .plain (prints_write _)
  | signaled signal =>
    obtain ⟨number, name, identified⟩ := signal
    cases name with
    | some name =>
      cases number with
      | some =>
        refine (Renders.front (prints_writeStr _) (.front (prints_text name.toList false)
          (.plain (prints_write _)))).congr Iff.rfl Iff.rfl ?_
        simp [chunkText]
      | none => exact .front (prints_writeStr _) (.plain (prints_text name.toList false))
    | none =>
      cases number with
      | some => exact .front (prints_writeStr _) (.plain (prints_write _))
      | none => simp at identified

theorem renders_status (value : Status) (debug : Bool) (depth : Nat) :
    Renders (status value debug depth) (∀ level ∈ value.stages.map fun _ => depth + 1, level ≤ maxDepth) False
      (if debug then value.debug else value.display) := by
  cases debug with
  | true => exact renders_debugStatus value.completion (renders_stagesFrom 0 depth value.stages) value.duration
  | false =>
    exact (Renders.charged (prints_completionMetadata value.completion) (.charged
      (prints_stagesMetadata depth value.stages) (renders_displayCompletion value))).congr (by simp) Iff.rfl rfl

/-! ## Values -/

theorem renders_columnsFrom (index : Nat) (columns : List String) :
    Renders (columnsFrom index columns) True False (debugColumns index columns) := by
  induction columns generalizing index with
  | nil => exact .plain Prints.nothing
  | cons column _ ih =>
    refine (Renders.front (prints_write (separator index ", ")) (.front (prints_quoted column.toList)
      (ih (index + 1)))).congr Iff.rfl Iff.rfl ?_
    rw [debugColumns, append_assoc]

section Values

variable {F C : Type} {formats : Formats F C}

variable {cut : Prop} {whole : List Char} {depth : Nat} {content : Value F C} {context : Surroundings}
  {budget : ResourceBudget} {output : List UInt8}

theorem renders_around {body : Printer} {able : Prop} (debug : Bool) (front : String) (renders : Renders body able cut whole) :
    Renders (around debug front body) able cut (if debug then front.toList ++ whole ++ ['"'] else whole) := by
  cases debug with
  | true =>
    refine (Renders.front (prints_writeStr front.toList) (renders.back (prints_writeStr ['"']))).congr Iff.rfl Iff.rfl ?_
    exact (append_assoc _ _ _).symm
  | false =>
    refine (Renders.nothing.seq (renders.seq Renders.nothing)).congr (by simp) (by simp) ?_
    exact append_nil whole

/-- No values at all. -/
theorem renders_none :
    Renders (pure ()) (Shown ([] : List (Value F C)) []) (CutsPath ([] : List (Value F C))) [] :=
  Renders.nothing.congr (by simp [shown_nil]) (by simp [not_cutsPath_nil]) rfl

/-- A value that is refused after it was charged. -/
theorem renders_refused {able : Prop} (never : ¬able) :
    Renders (node depth >>= fun _ => refuse unsupported) able cut whole := by
  have refused : ∀ pieces, Prints meter (node depth >>= fun _ => refuse unsupported) able (bytes pieces) := by
    intro pieces
    exact ((prints_node depth).seq (prints_refuse unsupported (bytes pieces))).congr (by simp [never]) rfl
  by_cases grows : cut
  · exact ⟨whole ++ [' '], refused _, fun kept => absurd grows kept, fun _ => by simp⟩
  · exact ⟨whole, refused _, fun _ => rfl, fun grown => absurd grown grows⟩

/-- A value without parts. -/
theorem renders_leaf {program : Printer} (alone : inside content = [content]) (level : depths depth content = [depth])
    (known : supported content = true) (cuts : CutsPath [content] ↔ cut) (renders : Renders program True cut whole) :
    Renders (node depth >>= fun _ => program) (Shown (inside content) (depths depth content))
      (CutsPath (inside content)) whole := by
  rw [alone, level]
  refine (Renders.charged (prints_node depth) renders).congr ?_ cuts.symm rfl
  rw [shown_cons]
  simp [known, shown_nil]

/-- Only a path itself is cut. -/
theorem cutsPath_other (other : ∀ path, .path path ≠ content) : CutsPath [content] ↔ False :=
  (cutsPath_cons other).trans (iff_false_intro not_cutsPath_nil)

theorem renders_scalar (debug : Bool) (pieces : Bool → List (List Char)) (alone : inside content = [content])
    (level : depths depth content = [depth]) (known : supported content = true) (other : ∀ path, .path path ≠ content)
    (debugs : Value.debug formats content = (pieces true).flatten)
    (displays : Value.display formats content = (pieces false).flatten) :
    Renders (node depth >>= fun _ => write (pieces debug)) (Shown (inside content) (depths depth content))
      (CutsPath (inside content)) (if debug then Value.debug formats content else Value.display formats content) := by
  refine renders_leaf alone level known (cutsPath_other other) ?_
  cases debug with
  | true => exact (Renders.plain (prints_write (pieces true))).congr .rfl .rfl debugs.symm
  | false => exact (Renders.plain (prints_write (pieces false))).congr .rfl .rfl displays.symm

mutual

theorem renders_value (debug : Bool) (depth : Nat) (content : Value F C) :
    Renders (value formats debug depth content) (Shown (inside content) (depths depth content))
      (CutsPath (inside content)) (if debug then Value.debug formats content else Value.display formats content) := by
  unfold value
  cases content with
  | error failure =>
    refine renders_refused fun shown => ?_
    have supports := shown.supported (.error failure) mem_cons_self
    contradiction
  | callable family body =>
    refine renders_refused fun shown => ?_
    have supports := shown.supported (.callable family body) mem_cons_self
    contradiction
  | string content =>
    refine renders_leaf rfl rfl rfl (cutsPath_other (by simp)) ?_
    cases debug with
    | true => exact .plain (prints_quoted content.toList)
    | false => exact .plain (prints_text content.toList false)
  | bytes content =>
    have written := renders_around debug "bytes\"" (.plain (prints_bytesFrom (Nat.le_refl content.length)))
    refine renders_leaf rfl rfl rfl (cutsPath_other (by simp)) (written.congr Iff.rfl Iff.rfl ?_)
    cases debug <;> rfl
  | path path =>
    have written := renders_around debug "path\"" (renders_pathFrom (Nat.le_refl path.bytes.length))
    refine renders_leaf rfl rfl rfl (by simp [CutsPath]) (written.congr Iff.rfl Iff.rfl ?_)
    cases debug <;> rfl
  | list values =>
    have inner := renders_valuesFrom 0 (depth + 1) values
    refine (Renders.charged (prints_node depth) (.front (prints_writeStr ['[']) (inner.back (prints_writeStr [']'])))).congr
      ?_ ?_ ?_
    · rw [inside, depths, shown_cons]
      simp [supported]
    · rw [inside, cutsPath_cons (by simp)]
    · cases debug <;> rfl
  | record entries =>
    have inner := renders_entriesFrom 0 (depth + 1) entries
    refine (Renders.charged (prints_node depth) (.front (prints_writeStr ['\x7b']) (inner.back (prints_writeStr ['\x7d'])))).congr
      ?_ ?_ ?_
    · rw [inside, depths, shown_cons]
      simp [supported]
    · rw [inside, cutsPath_cons (by simp)]
    · cases debug <;> rfl
  | nominalRecord id typeArguments fields =>
    by_cases known : isOpaqueOperationalNominal id = true
    · simp only [if_pos known]
      refine renders_refused fun shown => ?_
      have supports := shown.supported (.nominalRecord id typeArguments fields) (by simp [inside])
      simp [supported, known] at supports
    · simp only [if_neg known]
      have arguments := renders_types typeArguments (depth + 1)
      have inner := renders_fieldsFrom 0 (depth + 1) fields
      have closing : Prints meter (when (!fields.isEmpty) (writeStr [' '])) True
          (bytes (if fields.isEmpty then [] else [' '])) := by
        refine (prints_when (prints_writeStr [' ']) (!fields.isEmpty)).congr (by simp) ?_
        cases fields <;> rfl
      refine (Renders.charged (prints_node depth) (.front (prints_text id.name.toList false) (arguments.seq
        (.front (prints_writeStr _) (inner.seq (.front closing (.plain (prints_writeStr _)))))))).congr ?_ ?_ ?_
      · rw [inside, depths, shown_cons, shown_depths]
        simp [supported, known]
      · rw [inside, cutsPath_cons (by simp), false_or, or_false]
      · have whole := Value.debug.eq_def formats (.nominalRecord id typeArguments fields)
        simp only [append_assoc] at whole ⊢
        cases debug <;> exact whole.symm
  | variant id typeArguments variantName payload =>
    have arguments := renders_types typeArguments (depth + 1)
    have inner := (renders_valuesFrom 0 (depth + 1) payload).bracketed payload
      (by rintro rfl; simp [insideValues, valueDepths, shown_nil, not_cutsPath_nil]) ['('] [')']
    refine (Renders.charged (prints_node depth) (.front (prints_text id.name.toList false) (arguments.seq
      (.front (prints_writeStr _) (.front (prints_text variantName.toList false) inner))))).congr ?_ ?_ ?_
    · rw [inside, depths, shown_cons, shown_depths]
      simp [supported]
    · rw [inside, cutsPath_cons (by simp), false_or]
    · have whole := Value.debug.eq_def formats (.variant id typeArguments variantName payload)
      simp only [append_assoc] at whole ⊢
      cases debug <;> exact whole.symm
  | table columns rows =>
    have inner := renders_rowsFrom 0 (depth + 1) rows
    refine (Renders.charged (prints_node depth) (.front (prints_writeStr _) ((renders_columnsFrom 0 columns).seq
      (.front (prints_writeStr _) (inner.back (prints_writeStr _)))))).congr ?_ ?_ ?_
    · rw [inside, depths, shown_cons]
      simp [supported]
    · rw [inside, cutsPath_cons (by simp), false_or]
    · have whole := Value.debug.eq_def formats (.table columns rows)
      simp only [append_assoc] at whole ⊢
      cases debug <;> exact whole.symm
  | status content =>
    have alone : inside (.status content : Value F C) = [.status content] := rfl
    have parts : depths depth (.status content : Value F C) =
        depth :: ((content.stages.map fun _ => depth + 1) ++ []) := congrArg _ (append_nil _).symm
    rw [alone, parts]
    refine (Renders.charged (prints_node depth) (renders_status content debug depth)).congr ?_
      (cutsPath_other (by simp)).symm ?_
    · rw [shown_cons, shown_depths]
      simp [supported, shown_nil]
    · cases debug <;> rfl
  | null => exact renders_scalar debug (fun debug => Scalar.write formats debug .null) rfl rfl rfl (by simp) rfl rfl
  | bool content =>
    exact renders_scalar debug (fun debug => Scalar.write formats debug (.bool content)) rfl rfl rfl (by simp) rfl rfl
  | int content =>
    exact renders_scalar debug (fun debug => Scalar.write formats debug (.int content)) rfl rfl rfl (by simp) rfl rfl
  | float content =>
    exact renders_scalar debug (fun debug => Scalar.write formats debug (.float content)) rfl rfl rfl (by simp) rfl rfl
  | duration content =>
    exact renders_scalar debug (fun debug => Scalar.write formats debug (.duration content)) rfl rfl rfl (by simp) rfl rfl
  | byteSize content =>
    exact renders_scalar debug (fun debug => Scalar.write formats debug (.byteSize content)) rfl rfl rfl (by simp) rfl rfl
  | range content =>
    exact renders_scalar debug (fun debug => Scalar.write formats debug (.range content)) rfl rfl rfl (by simp) rfl rfl

theorem renders_valuesFrom (index depth : Nat) (values : List (Value F C)) :
    Renders (valuesFrom formats index depth values) (Shown (insideValues values) (valueDepths depth values))
      (CutsPath (insideValues values)) (Value.debugFrom formats index values) := by
  cases values with
  | nil => exact renders_none
  | cons content contents =>
    have first := renders_value true depth content
    have others := renders_valuesFrom (index + 1) depth contents
    refine (Renders.front (prints_write (separator index ", ")) (first.seq others)).congr ?_ ?_ ?_
    · rw [insideValues, valueDepths, shown_append]
    · rw [insideValues, cutsPath_append]
    · rw [Value.debugFrom, append_assoc]
      rfl

theorem renders_entriesFrom (index depth : Nat) (entries : List (String × Value F C)) :
    Renders (entriesFrom formats index depth entries) (Shown (insideEntries entries) (entryDepths depth entries))
      (CutsPath (insideEntries entries)) (Value.debugEntries formats index entries) := by
  cases entries with
  | nil => exact renders_none
  | cons entry entries =>
    obtain ⟨key, content⟩ := entry
    have first := renders_value true depth content
    have others := renders_entriesFrom (index + 1) depth entries
    refine (Renders.front (prints_write (separator index ", ")) (.front (prints_quoted key.toList)
      (.front (prints_writeStr _) (first.seq others)))).congr ?_ ?_ ?_
    · rw [insideEntries, entryDepths, shown_append]
    · rw [insideEntries, cutsPath_append]
    · rw [Value.debugEntries]
      simp only [append_assoc]
      rfl

theorem renders_fieldsFrom (index depth : Nat) (fields : List (String × Value F C)) :
    Renders (fieldsFrom formats index depth fields) (Shown (insideEntries fields) (entryDepths depth fields))
      (CutsPath (insideEntries fields)) (Value.debugFields formats index fields) := by
  cases fields with
  | nil => exact renders_none
  | cons field fields =>
    obtain ⟨name, content⟩ := field
    have first := renders_value true depth content
    have others := renders_fieldsFrom (index + 1) depth fields
    refine (Renders.front (prints_write (separator index ",")) (.front (prints_writeStr [' ']) (.front
      (prints_text name.toList false) (.front (prints_writeStr _) (first.seq others))))).congr ?_ ?_ ?_
    · rw [insideEntries, entryDepths, shown_append]
    · rw [insideEntries, cutsPath_append]
    · rw [Value.debugFields]
      simp only [append_assoc]
      rfl

theorem renders_rowsFrom (index depth : Nat) (rows : List (List (Value F C))) :
    Renders (rowsFrom formats index depth rows) (Shown (insideRows rows) (rowDepths depth rows))
      (CutsPath (insideRows rows)) (Value.debugRows formats index rows) := by
  cases rows with
  | nil => exact renders_none
  | cons row rows =>
    have first := renders_valuesFrom 0 depth row
    have others := renders_rowsFrom (index + 1) depth rows
    refine (Renders.charged prints_step (.front (prints_write (separator index ", ")) (.front (prints_writeStr ['['])
      (first.seq (.front (prints_writeStr [']']) others))))).congr ?_ ?_ ?_
    · rw [insideRows, rowDepths, shown_append, true_and]
    · rw [insideRows, cutsPath_append]
    · rw [Value.debugRows]
      simp only [append_assoc]

end

/-! ## The printer -/

/-- A printer that has not written anything. -/
def start (budget : ResourceBudget) (clock : Nat) : Display := ⟨[], 0, 0, budget, clock⟩

theorem prepare_eq_ok {clock : Nat} {after : Display} :
    prepare formats content context budget clock = .ok output after ↔
      value formats false 1 content context (start budget clock) = .ok () after ∧ output = after.output := by
  constructor
  · intro ran
    obtain ⟨_, _, printed, ran⟩ := bind_returns ran
    cases ran
    exact ⟨printed, rfl⟩
  · rintro ⟨printed, rfl⟩
    exact (ok_bind printed).trans rfl

variable (formats)

/-- What is promised of the printer: whatever it returns is the display form of the value, and it does return
for a value that is shown whenever the cap and the budget are enough. -/
structure Agrees (content : Value F C) : Prop where
  displays : ∀ context budget clock output after, prepare formats content context budget clock = .ok output after →
    output = bytes (Value.display formats content)
  returns : Shown (inside content) (depths 1 content) → ∃ enough, ∀ context budget clock,
    Affords context (start budget clock) enough →
      ∃ output after, prepare formats content context budget clock = .ok output after

variable {formats}

theorem prepare_returns (content : Value F C) (shown : Shown (inside content) (depths 1 content)) :
    ∃ enough, ∀ context budget clock, Affords context (start budget clock) enough →
      ∃ output after, prepare formats content context budget clock = .ok output after := by
  obtain ⟨_, prints, _⟩ := @renders_value F C formats false 1 content
  obtain ⟨enough, paid⟩ := prints.pays shown
  refine ⟨enough, ?_⟩
  intro context budget clock affords
  have all : meter.affords context (start budget clock) (enough + 0) := affords
  obtain ⟨after, printed, _⟩ := paid all
  exact ⟨after.output, after, prepare_eq_ok.mpr ⟨printed, rfl⟩⟩

/-- What is returned is the display form exactly when no path is cut inside a scalar. -/
theorem prepare_displays_iff {clock : Nat} {after : Display}
    (ran : prepare formats content context budget clock = .ok output after) :
    Shown (inside content) (depths 1 content) ∧
      (output = bytes (Value.display formats content) ↔ ¬CutsPath (inside content)) := by
  obtain ⟨pieces, prints, stretched⟩ := @renders_value F C formats false 1 content
  obtain ⟨printed, rfl⟩ := prepare_eq_ok.mp ran
  obtain ⟨shown, written⟩ := prints.writes printed
  refine ⟨shown, ?_⟩
  have output : after.output = bytes pieces := written
  rw [output, ← stretched.eq_iff]
  constructor
  · intro same
    have decoded := congrArg decode same
    rw [decode_bytes, decode_bytes] at decoded
    exact Option.some.inj decoded
  · exact congrArg bytes

/-- A limit that is never met. -/
theorem affords_unlimited (amount clock : Nat) :
    Affords ⟨amount, fun _ => none, fun _ _ => true⟩ (start .unlimited clock) amount := by
  refine ⟨fun _ => rfl, fun _ _ => rfl, ?_, ?_, ?_⟩
  · show 0 + amount ≤ amount
    omega
  all_goals
    intro limit limited
    contradiction

theorem Agrees.not_cutsPath (agrees : Agrees formats content) (shown : Shown (inside content) (depths 1 content)) : ¬CutsPath (inside content) := by
  obtain ⟨enough, returns⟩ := agrees.returns shown
  obtain ⟨_, _, ran⟩ := returns _ _ 0 (affords_unlimited enough 0)
  exact (prepare_displays_iff ran).2.mp (agrees.displays _ _ _ _ _ ran)

/-- The printer agrees with the display form of a value exactly when it refuses the value or no path in it
is cut inside a scalar. -/
theorem prepare_agrees_iff (formats : Formats F C) (content : Value F C) :
    Agrees formats content ↔ (Shown (inside content) (depths 1 content) → ¬CutsPath (inside content)) := by
  constructor
  · exact Agrees.not_cutsPath
  · intro kept
    refine ⟨?_, prepare_returns content⟩
    intro context budget clock output after ran
    obtain ⟨shown, displays⟩ := prepare_displays_iff ran
    exact displays.mpr (kept shown)

end Values

/-- Formats of nothing. -/
def emptyFormats : Formats Unit Unit where
  float _ := []
  float_fits _ := Nat.zero_le 327
  errorDebug _ := []
  errorDisplay _ := []
  callableDebug _ := []
  callableDisplay _ := []

/-- A scalar of four bytes that ends with the first block, and a byte behind it that continues nothing. -/
def emojiPath : NativePath := ⟨List.replicate 4092 0x61 ++ [0xF0, 0x9F, 0x98, 0x80, 0x80]⟩

theorem cutsScalar_emojiPath : CutsScalar emojiPath.bytes := by
  apply CutsScalar.here
  · intro offset small
    unfold emojiPath shortBlock block
    rw [List.getElem?_append_right (by rw [length_replicate]; omega), length_replicate]
    have offsets : offset = 0 ∨ offset = 1 ∨ offset = 2 ∨ offset = 3 := by omega
    rcases offsets with rfl | rfl | rfl | rfl <;> rfl
  · refine ⟨List.replicate 4092 0x61, [0xF0], [0x9F, 0x98, 0x80], [0x80], Char.ofNat 0x1F600, ?_, ?_, by decide, by decide,
      by decide⟩
    · unfold emojiPath shortBlock block
      rw [take_append, length_replicate, take_of_length_le (by rw [length_replicate]; omega)]
      rfl
    · unfold emojiPath shortBlock block
      rw [drop_append, length_replicate, drop_of_length_le (by rw [length_replicate]; omega)]
      rfl

/-- The printer writes the four bytes of that scalar one by one. -/
theorem prepare_cuts_emoji : ¬Agrees emptyFormats (.path emojiPath) := by
  intro agrees
  have shown : Shown (inside (.path emojiPath : Value Unit Unit)) (depths 1 (.path emojiPath : Value Unit Unit)) :=
    shown_cons.mpr ⟨by decide, rfl, shown_nil⟩
  exact agrees.not_cutsPath shown ⟨emojiPath, mem_cons_self, cutsScalar_emojiPath⟩

end Opaal.Operational.Display
