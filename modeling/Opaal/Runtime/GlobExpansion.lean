import Opaal.Machine.Stateful
import Opaal.Runtime.Glob
import Mathlib.Data.Finset.Basic
import Mathlib.Algebra.BigOperators.Group.Finset.Basic

/-!
# Expanding a pattern against matching it

Over a finite tree without symbolic links, the walk behind a pattern ends and finds the paths the
pattern matches, in order and once each. A walk into a trailing `**` only finds directories.
-/

namespace Opaal.Runtime.Glob

open List
open Opaal.Machine (bind_ok)

/-! ## The order of paths -/

instance : Std.TransCmp compareComponents :=
  inferInstanceAs (Std.TransCmp (compareLex (compareOn componentRank) compare))

instance : Std.LawfulEqCmp compareComponents where
  eq_of_compare equal := Std.LawfulEqOrd.eq_of_compare (compareLex_eq_eq.mp equal).2

instance : Std.TransCmp compareNames where
  eq_swap {left right} := by
    have swapped : List.compareLex compareComponents left.names right.names =
      (List.compareLex compareComponents right.names left.names).swap := Std.OrientedCmp.eq_swap
    exact swapped
  isLE_trans {left middle right} first second := by
    change (List.compareLex compareComponents left.names right.names).isLE = true
    exact Std.TransCmp.isLE_trans first second

instance : Std.TransCmp comparePaths :=
  inferInstanceAs (Std.TransCmp (compareLex (compareOn fun path : GlobPath => !path.absolute) compareNames))

instance : Std.LawfulEqCmp comparePaths where
  eq_of_compare {left right} equal := by
    obtain ⟨flags, names⟩ := compareLex_eq_eq.mp equal
    have sameFlag : (!left.absolute) = !right.absolute := Std.LawfulEqOrd.eq_of_compare flags
    change List.compareLex compareComponents left.names right.names = .eq at names
    have sameNames : left.names = right.names := Std.LawfulEqCmp.eq_of_compare names
    cases left
    cases right
    simp_all

theorem pathOrder_trans (first second third : GlobPath) :
    pathOrder first second = true → pathOrder second third = true → pathOrder first third = true :=
  fun left right => Std.TransCmp.isLE_trans left right

theorem pathOrder_total (first second : GlobPath) : (pathOrder first second || pathOrder second first) = true := by
  have swapped : comparePaths second first = (comparePaths first second).swap := Std.OrientedCmp.eq_swap
  simp only [pathOrder, swapped]
  cases comparePaths first second <;> rfl

variable (path : GlobPath) (paths : List GlobPath) (tree : DirectoryTree)

theorem mem_dedup : path ∈ dedup paths ↔ path ∈ paths := by
  fun_induction dedup paths with
  | case1 _ _ ih => simp [ih]
  | case2 _ _ _ _ ih => simp [ih]
  | case3 => rfl

/-- Equal paths stand together in an ordered list, so that dropping repetitions leaves each once. -/
theorem dedup_increasing (sorted : paths.Pairwise (pathOrder · · = true)) :
    (dedup paths).Pairwise (comparePaths · · = .lt) := by
  fun_induction dedup paths with
  | case1 _ _ ih => exact ih (pairwise_cons.mp sorted).2
  | case2 first second _ different ih =>
    obtain ⟨below, sorted⟩ := pairwise_cons.mp sorted
    refine pairwise_cons.mpr ⟨fun path found => ?_, ih sorted⟩
    have firstSecond : comparePaths first second = .lt := by
      have ordered := below second (by simp)
      rcases comparison : comparePaths first second with _ | _ | _
      · rfl
      · exact absurd (Std.LawfulEqCmp.eq_of_compare comparison) different
      · simp [pathOrder, comparison] at ordered
    rcases mem_cons.mp ((mem_dedup path _).mp found) with same | later
    · rw [same]
      exact firstSecond
    · have ordered : pathOrder second path = true := (pairwise_cons.mp sorted).1 path later
      exact Std.TransCmp.lt_of_lt_of_isLE firstSecond ordered
  | case3 paths short =>
    match paths, short with
    | [], _ => exact .nil
    | [_], _ => simp
    | first :: second :: rest, short => exact absurd rfl (short first second rest)

theorem sorted_increasing :
    (dedup (paths.mergeSort pathOrder)).Pairwise (comparePaths · · = .lt) :=
  dedup_increasing _ (pairwise_mergeSort pathOrder_trans pathOrder_total paths)

/-! ## Spelled paths -/

def GlobPath.spelling (path : GlobPath) : NativePath :=
  ⟨(if path.absolute then ['/'.toUInt8] else []) ++ ['/'.toUInt8].intercalate path.names⟩

open GlobPath (spelling)

/-- A name that a directory can give one of its entries. -/
structure EntryName (name : Name) : Prop where
  nonempty : name ≠ []
  single : '/'.toUInt8 ∉ name
  notDot : isDotEntry name = false

theorem EntryName.ne_current {name : Name} (valid : EntryName name) : name ≠ currentDirectory := by
  have notDot := valid.notDot
  simp only [isDotEntry, Bool.or_eq_false_iff, beq_eq_false_iff_ne] at notDot
  exact notDot.1

section

variable (names : List Name) (valid : ∀ name ∈ names, EntryName name)
include names valid

theorem filter_entryNames :
    names.filter (· ≠ currentDirectory) = names :=
  filter_eq_self.mpr fun name found => by simpa using (valid name found).ne_current

theorem parts_intercalate :
    ((['/'.toUInt8].intercalate names).splitOn '/'.toUInt8).filter (· ≠ []) = names := by
  cases names with
  | nil => rfl
  | cons =>
    rw [splitOn_intercalate _ (fun name found => (valid name found).single) (by simp)]
    exact filter_eq_self.mpr fun name found => by simpa using (valid name found).nonempty

theorem intercalate_head :
    (['/'.toUInt8].intercalate names).head? ≠ some '/'.toUInt8 := by
  cases names with
  | nil => simp
  | cons first rest =>
    have ⟨nonempty, single, _⟩ := valid first (by simp)
    cases first with
    | nil => contradiction
    | cons byte =>
      have other : byte ≠ '/'.toUInt8 := fun same => single (by simp [same])
      cases rest with
      | nil | cons => simpa using other

end

/-- A spelled path has the components it was spelled from. -/
theorem components_spelling (valid : ∀ name ∈ path.names, EntryName name) :
    path.spelling.components = (path.absolute, path.names) := by
  obtain ⟨absolute, names⟩ := path
  have parts : ((spelling ⟨absolute, names⟩).bytes.splitOn '/'.toUInt8).filter (· ≠ []) = names := by
    cases absolute with
    | false => simpa [spelling] using parts_intercalate names valid
    | true =>
      have split := parts_intercalate names valid
      simpa [spelling, splitOn_cons_eq_if_modifyHead] using split
  have flag : ((spelling ⟨absolute, names⟩).bytes.head? == some '/'.toUInt8) = absolute := by
    cases absolute with
    | false => simpa [spelling] using intercalate_head names valid
    | true => simp [spelling]
  simp only [NativePath.components, parts, flag]
  cases names with
  | nil => rfl
  | cons first rest =>
    have firstKept : first ≠ currentDirectory := (valid first (by simp)).ne_current
    have restKept : ∀ name ∈ rest, name ≠ currentDirectory := fun name found => (valid name (by simp [found])).ne_current
    simp only [currentDirectory] at firstKept restKept
    simpa [firstKept] using restKept

/-! ## Trees -/

/-- A finite tree below the root and below the working directory. Only directories have entries: a
symbolic link has none. -/
structure DirectoryTree where
  kind : GlobPath → Option DirectoryEntryKind
  root : ∀ absolute, kind ⟨absolute, []⟩ = some .directory
  parent : ∀ path name, (kind (path.push name)).isSome → kind path = some .directory
  entryNames : ∀ path, (kind path).isSome → ∀ name ∈ path.names, EntryName name
  paths : Finset GlobPath
  complete : ∀ path, (kind path).isSome → path ∈ paths

/-- A reader lists the entries of each directory of a tree, in any order, with or without the
entries for the directory itself and its parent. -/
structure DirectoryTree.ListedBy {E : Type} (tree : DirectoryTree)
    (readDirectory : GlobPath → Except E (List DirectoryEntry)) : Prop where
  listed : ∀ directory, tree.kind directory = some .directory →
    ∃ entries, readDirectory (readPath directory) = .ok entries ∧
      ∀ name kind, isDotEntry name = false →
        (⟨name, kind⟩ ∈ entries ↔ tree.kind (directory.push name) = some kind)

def GlobPath.extend (path : GlobPath) (names : List Name) : GlobPath := ⟨path.absolute, path.names ++ names⟩

open GlobPath (extend)

@[simp] theorem GlobPath.extend_nil : path.extend [] = path := by simp [extend]

@[simp] theorem GlobPath.extend_extend (first second : List Name) :
    (path.extend first).extend second = path.extend (first ++ second) := by
  simp [extend]

@[simp] theorem GlobPath.extend_push (names : List Name) (name : Name) :
    (path.extend names).push name = path.extend (names ++ [name]) := by
  simp [extend, GlobPath.push]

@[simp] theorem GlobPath.push_extend (name : Name) (names : List Name) :
    (path.push name).extend names = path.extend (name :: names) := by
  simp [extend, GlobPath.push]

/-- Every beginning of a path with names behind it is a directory. -/
theorem DirectoryTree.directory_of_extend (path : GlobPath) (names : List Name)
    (found : (tree.kind (path.extend names)).isSome) (nonempty : names ≠ []) : tree.kind path = some .directory := by
  induction names using List.reverseRecOn with
  | nil => contradiction
  | append_singleton names name ih =>
    have above : tree.kind (path.extend names) = some .directory := by
      refine tree.parent (path.extend names) name ?_
      simpa using found
    cases names with
    | nil => simpa using above
    | cons => exact ih (by simp [above]) (by simp)

theorem DirectoryTree.entryName {path : GlobPath} {name : Name} (found : (tree.kind (path.push name)).isSome) : EntryName name :=
  tree.entryNames _ found name (by simp [GlobPath.push])

/-! ## Matching segment by segment -/

theorem matchSegments_recursive (rest : List PatternSegment) (candidate : List Name) :
    matchSegments (.recursive :: rest) candidate = true ↔
      ∃ walked left, candidate = walked ++ left ∧ (∀ name ∈ walked, startsWithDot name = false) ∧
        matchSegments rest left = true := by
  induction candidate with
  | nil => simp [matchSegments]
  | cons name candidate ih =>
    rw [matchSegments, Bool.or_eq_true, Bool.and_eq_true, ih]
    constructor
    · rintro (here | ⟨visible, walked, left, rfl, allVisible, matched⟩)
      · exact ⟨[], name :: candidate, rfl, by simp, here⟩
      · exact ⟨name :: walked, left, rfl, by simpa using ⟨by simpa using visible, allVisible⟩, matched⟩
    · rintro ⟨walked, left, split, allVisible, matched⟩
      cases walked with
      | nil =>
        left
        rwa [split]
      | cons _ walked =>
        obtain ⟨rfl, rfl⟩ := List.cons.inj split
        right
        exact ⟨by simpa using allVisible name (by simp), walked, left, rfl,
          fun other found => allVisible other (by simp [found]), matched⟩

/-- Only recursive segments match no names at all. -/
theorem matchSegments_nil (segments : List PatternSegment) (matched : matchSegments segments [] = true) :
    segments = [] ∨ segments.getLast? = some .recursive := by
  induction segments with
  | nil => exact .inl rfl
  | cons segment _ ih =>
    cases segment with
    | parent | component => simp [matchSegments] at matched
    | recursive =>
      rw [matchSegments] at matched
      rcases ih matched with rfl | last
      · exact .inr rfl
      · right
        simp [List.getLast?_cons, last]

/-! ## The recursive walk -/

section Walk

variable {E : Type} {tree : DirectoryTree} {readDirectory : GlobPath → Except E (List DirectoryEntry)}

variable {directory : GlobPath} {directories pending result starts : List GlobPath} {rest : List PatternSegment}

theorem readEntries_listed (lists : tree.ListedBy readDirectory) (isDirectory : tree.kind directory = some .directory) :
    ∃ entries, readEntries readDirectory directory = .ok entries ∧
      ∀ name kind, isDotEntry name = false →
        (⟨name, kind⟩ ∈ entries ↔ tree.kind (directory.push name) = some kind) := by
  obtain ⟨_, read, listed⟩ := lists.listed directory isDirectory
  refine ⟨_, by rw [readEntries, read], fun name kind notDot => ?_⟩
  rw [mem_mergeSort, listed name kind notDot]

/-- The directories a walk enters from one. -/
def childrenOf (readDirectory : GlobPath → Except E (List DirectoryEntry)) (directory : GlobPath) : List GlobPath :=
  match readEntries readDirectory directory with
  | .ok entries => visibleDirectories directory entries
  | .error _ => []

theorem mem_childrenOf (lists : tree.ListedBy readDirectory) (isDirectory : tree.kind directory = some .directory)
    (child : GlobPath) :
    child ∈ childrenOf readDirectory directory ↔
      ∃ name, child = directory.push name ∧ startsWithDot name = false ∧ tree.kind child = some .directory := by
  obtain ⟨_, read, listed⟩ := readEntries_listed lists isDirectory
  simp only [childrenOf, read, visibleDirectories, mem_map, mem_filter, Bool.and_eq_true,
    Bool.not_eq_true', beq_iff_eq]
  constructor
  · rintro ⟨⟨name, kind⟩, ⟨found, ⟨rfl, notDot⟩, visible⟩, rfl⟩
    exact ⟨name, rfl, visible, (listed name _ notDot).mp found⟩
  · rintro ⟨name, rfl, visible, isChild⟩
    have present : (tree.kind (directory.push name)).isSome := by simp [isChild]
    have notDot : isDotEntry name = false := (tree.entryName present).notDot
    exact ⟨⟨name, .directory⟩, ⟨(listed name _ notDot).mpr isChild, ⟨rfl, notDot⟩, visible⟩, rfl⟩

/-- What a walk keeps: every child of a directory it entered was entered or is pending. -/
structure Walking (tree : DirectoryTree) (readDirectory : GlobPath → Except E (List DirectoryEntry))
    (directories pending : List GlobPath) : Prop where
  entered : ∀ directory ∈ directories, tree.kind directory = some .directory
  waiting : ∀ directory ∈ pending, tree.kind directory = some .directory
  followed : ∀ directory ∈ directories, ∀ child ∈ childrenOf readDirectory directory,
    child ∈ directories ∨ child ∈ pending

theorem Walking.skip (walking : Walking tree readDirectory directories (pending ++ [directory]))
    (seen : directory ∈ directories) :
    Walking tree readDirectory directories pending where
  entered := walking.entered
  waiting other found := walking.waiting other (by simp [found])
  followed other found child isChild := by
    rcases walking.followed other found child isChild with inside | outside
    · exact .inl inside
    · rcases mem_append.mp outside with outside | last
      · exact .inr outside
      · rw [mem_singleton.mp last]
        exact .inl seen

theorem Walking.enter (lists : tree.ListedBy readDirectory)
    (walking : Walking tree readDirectory directories (pending ++ [directory])) :
    Walking tree readDirectory (directories ++ [directory])
      (pending ++ (childrenOf readDirectory directory).reverse) where
  entered other found := by
    rcases mem_append.mp found with found | last
    · exact walking.entered other found
    · rw [mem_singleton.mp last]
      exact walking.waiting directory (by simp)
  waiting other found := by
    rcases mem_append.mp found with found | isChild
    · exact walking.waiting other (by simp [found])
    · have isDirectory := walking.waiting directory (by simp)
      obtain ⟨_, _, _, childKind⟩ := (mem_childrenOf lists isDirectory other).mp (by simpa using isChild)
      exact childKind
  followed other found child isChild := by
    rcases mem_append.mp found with found | last
    · rcases walking.followed other found child isChild with inside | outside
      · exact .inl (by simp [inside])
      · rcases mem_append.mp outside with outside | last
        · exact .inr (by simp [outside])
        · exact .inl (by simp [mem_singleton.mp last])
    · rw [mem_singleton.mp last] at isChild
      exact .inr (by simp [isChild])

/-- The turns a walk has left: one for each pending directory and for each child still to be found. -/
def remainingTurns (tree : DirectoryTree) (readDirectory : GlobPath → Except E (List DirectoryEntry))
    (directories pending : List GlobPath) : Nat :=
  pending.length + ∑ directory ∈ tree.paths \ directories.toFinset, (childrenOf readDirectory directory).length

theorem remainingTurns_skip (tree : DirectoryTree) (readDirectory : GlobPath → Except E (List DirectoryEntry))
    (directories pending : List GlobPath) (directory : GlobPath) :
    remainingTurns tree readDirectory directories pending + 1 =
      remainingTurns tree readDirectory directories (pending ++ [directory]) := by
  simp only [remainingTurns, length_append, length_singleton]
  omega

theorem remainingTurns_enter (readDirectory : GlobPath → Except E (List DirectoryEntry)) (directories pending : List GlobPath) (directory : GlobPath)
    (inTree : directory ∈ tree.paths) (fresh : directory ∉ directories) :
    remainingTurns tree readDirectory (directories ++ [directory])
        (pending ++ (childrenOf readDirectory directory).reverse) + 1 =
      remainingTurns tree readDirectory directories (pending ++ [directory]) := by
  have split : tree.paths \ directories.toFinset =
      insert directory (tree.paths \ (directories ++ [directory]).toFinset) := by
    ext path
    by_cases same : path = directory
    · subst same
      simp [inTree, fresh]
    · simp [same]
  have outside : directory ∉ tree.paths \ (directories ++ [directory]).toFinset := by simp
  simp only [remainingTurns, split, Finset.sum_insert outside, length_append, length_reverse,
    length_singleton]
  omega

/-- What a finished walk has found, from the directories entered before and those pending then. -/
structure WalkedFrom (tree : DirectoryTree) (readDirectory : GlobPath → Except E (List DirectoryEntry))
    (directories pending result : List GlobPath) : Prop where
  done : Walking tree readDirectory result []
  kept : ∀ directory, directory ∈ directories ∨ directory ∈ pending → directory ∈ result
  below : ∀ directory ∈ result, directory ∈ directories ∨
    ∃ base ∈ pending, ∃ walked, (∀ name ∈ walked, startsWithDot name = false) ∧ directory = base.extend walked

theorem WalkedFrom.skip (seen : directory ∈ directories) (walked : WalkedFrom tree readDirectory directories pending result) :
    WalkedFrom tree readDirectory directories (pending ++ [directory]) result where
  done := walked.done
  kept other found := by
    rcases found with found | found
    · exact walked.kept other (.inl found)
    · rcases mem_append.mp found with found | last
      · exact walked.kept other (.inr found)
      · rw [mem_singleton.mp last]
        exact walked.kept directory (.inl seen)
  below other found := by
    rcases walked.below other found with inside | ⟨base, waits, names, visible, reached⟩
    · exact .inl inside
    · exact .inr ⟨base, by simp [waits], names, visible, reached⟩

theorem WalkedFrom.enter (lists : tree.ListedBy readDirectory) (isDirectory : tree.kind directory = some .directory)
    (walked : WalkedFrom tree readDirectory (directories ++ [directory]) (pending ++ (childrenOf readDirectory directory).reverse) result) :
    WalkedFrom tree readDirectory directories (pending ++ [directory]) result where
  done := walked.done
  kept other found := by
    refine walked.kept other ?_
    rcases found with found | found
    · exact .inl (by simp [found])
    · rcases mem_append.mp found with found | last
      · exact .inr (by simp [found])
      · exact .inl (by simp [mem_singleton.mp last])
  below other found := by
    rcases walked.below other found with inside | ⟨base, waits, names, visible, reached⟩
    · rcases mem_append.mp inside with inside | last
      · exact .inl inside
      · exact .inr ⟨directory, by simp, [], by simp, by simp [mem_singleton.mp last]⟩
    · rcases mem_append.mp waits with waits | isChild
      · exact .inr ⟨base, by simp [waits], names, visible, reached⟩
      · obtain ⟨name, rfl, nameVisible, _⟩ := (mem_childrenOf lists isDirectory base).mp (by simpa using isChild)
        exact .inr ⟨directory, by simp, name :: names, by simpa using ⟨nameVisible, visible⟩, by simpa using reached⟩

/-- One pass of the loop takes one of the turns left. -/
theorem collectRecursive_walks (lists : tree.ListedBy readDirectory) (bound : Nat)
    (directories pending : List GlobPath) (walking : Walking tree readDirectory directories pending)
    (enough : remainingTurns tree readDirectory directories pending < bound) :
    ∃ result, collectRecursive readDirectory bound directories pending = .ok result ∧
      WalkedFrom tree readDirectory directories pending result := by
  induction bound generalizing directories pending with
  | zero => omega
  | succ bound ih =>
    rw [collectRecursive]
    rcases eq_nil_or_concat' pending with rfl | ⟨pending, directory, rfl⟩
    · exact ⟨directories, rfl, walking, by simp, fun directory found => .inl found⟩
    · simp only [List.getLast?_concat, dropLast_concat]
      by_cases seen : directory ∈ directories
      · rw [if_pos seen]
        have turn := remainingTurns_skip tree readDirectory directories pending directory
        obtain ⟨result, ran, walked⟩ := ih directories pending (walking.skip seen) (by omega)
        exact ⟨result, ran, walked.skip seen⟩
      · rw [if_neg seen]
        have isDirectory : tree.kind directory = some .directory := walking.waiting directory (by simp)
        obtain ⟨entries, read, _⟩ := readEntries_listed lists isDirectory
        have children : visibleDirectories directory entries = childrenOf readDirectory directory := by
          simp [childrenOf, read]
        have turn := remainingTurns_enter readDirectory directories pending directory
          (tree.complete directory (by simp [isDirectory])) seen
        obtain ⟨result, ran, walked⟩ := ih _ _ (walking.enter lists) (by omega)
        rw [← children] at ran
        refine ⟨result, ?_, walked.enter lists isDirectory⟩
        simpa only [read, bind, Except.bind] using ran

/-- The turns that are enough for a walk from one directory. -/
def turnBound (tree : DirectoryTree) (readDirectory : GlobPath → Except E (List DirectoryEntry)) : Nat :=
  1 + ∑ directory ∈ tree.paths, (childrenOf readDirectory directory).length

theorem remainingTurns_start (tree : DirectoryTree) (readDirectory : GlobPath → Except E (List DirectoryEntry))
    (directories : List GlobPath) (path : GlobPath) :
    remainingTurns tree readDirectory directories [path] ≤ turnBound tree readDirectory := by
  have fewer : ∑ directory ∈ tree.paths \ directories.toFinset, (childrenOf readDirectory directory).length ≤
      ∑ directory ∈ tree.paths, (childrenOf readDirectory directory).length :=
    Finset.sum_le_sum_of_subset Finset.sdiff_subset
  simp only [remainingTurns, turnBound, length_singleton]
  omega

theorem WalkedFrom.trans {middle rest : List GlobPath} {path : GlobPath}
    (first : WalkedFrom tree readDirectory directories [path] middle)
    (second : WalkedFrom tree readDirectory middle rest result) :
    WalkedFrom tree readDirectory directories (path :: rest) result where
  done := second.done
  kept other found := by
    refine second.kept other ?_
    rcases found with found | found
    · exact .inl (first.kept other (.inl found))
    · rcases mem_cons.mp found with rfl | found
      · exact .inl (first.kept other (.inr (by simp)))
      · exact .inr found
  below other found := by
    rcases second.below other found with inside | ⟨base, waits, names, visible, reached⟩
    · rcases first.below other inside with inside | ⟨base, waits, names, visible, reached⟩
      · exact .inl inside
      · exact .inr ⟨base, by simp [mem_singleton.mp waits], names, visible, reached⟩
    · exact .inr ⟨base, by simp [waits], names, visible, reached⟩

section

variable (lists : tree.ListedBy readDirectory)
include lists

/-- Walks from several directories share what was entered before. -/
theorem collectRecursive_all (bound : Nat) (enough : turnBound tree readDirectory < bound)
    (paths directories : List GlobPath) (inTree : ∀ path ∈ paths, tree.kind path = some .directory)
    (walking : Walking tree readDirectory directories []) :
    ∃ result, paths.foldlM (fun directories path => collectRecursive readDirectory bound directories [path]) directories =
        .ok result ∧ WalkedFrom tree readDirectory directories paths result := by
  induction paths generalizing directories with
  | nil => exact ⟨directories, rfl, walking, by simp, fun directory found => .inl found⟩
  | cons path rest ih =>
    have start : Walking tree readDirectory directories [path] := {
      entered := walking.entered
      waiting := fun other found => inTree other (by simp [mem_singleton.mp found])
      followed := fun other found child isChild => .inl (by simpa using walking.followed other found child isChild) }
    have turns := remainingTurns_start tree readDirectory directories path
    obtain ⟨middle, ran, first⟩ := collectRecursive_walks lists bound directories [path] start (by omega)
    obtain ⟨result, ranRest, second⟩ := ih middle (fun other found => inTree other (by simp [found])) first.done
    refine ⟨result, ?_, first.trans second⟩
    simp only [foldlM_cons, ran]
    exact ranRest

/-- A finished walk found the directories below its starts that are not hidden from them. -/
theorem WalkedFrom.mem_iff {paths : List GlobPath} (walked : WalkedFrom tree readDirectory [] paths result)
    (path : GlobPath) :
    path ∈ result ↔ ∃ base ∈ paths, ∃ names, (∀ name ∈ names, startsWithDot name = false) ∧
      path = base.extend names ∧ tree.kind path = some .directory := by
  constructor
  · intro found
    rcases walked.below path found with inside | ⟨base, starts, names, visible, reached⟩
    · simp at inside
    · exact ⟨base, starts, names, visible, reached, walked.done.entered path found⟩
  · rintro ⟨base, starts, names, visible, rfl, isDirectory⟩
    induction names using List.reverseRecOn with
    | nil => exact walked.kept _ (.inr (by simpa using starts))
    | append_singleton names name ih =>
      have above : tree.kind (base.extend names) = some .directory :=
        tree.parent (base.extend names) name (by simp [isDirectory])
      have foundAbove := ih (fun other found => visible other (by simp [found])) above
      have isChild : base.extend (names ++ [name]) ∈ childrenOf readDirectory (base.extend names) :=
        (mem_childrenOf lists above _).mpr ⟨name, by simp, visible name (by simp), isDirectory⟩
      simpa using walked.done.followed _ foundAbove _ isChild

/-! ## Expansion -/

variable (pattern : ComponentPattern) (finalSegment : Bool)

theorem selectEntries_selects (isDirectory : tree.kind directory = some .directory) :
    ∃ selected, selectEntries readDirectory pattern finalSegment directory = .ok selected ∧
      ∀ path, path ∈ selected ↔ ∃ name kind, path = directory.push name ∧ pattern.matches name = true ∧
        tree.kind path = some kind ∧ (finalSegment = true ∨ kind = .directory) := by
  obtain ⟨_, read, listed⟩ := readEntries_listed lists isDirectory
  refine ⟨_, by rw [selectEntries, read]; rfl, fun path => ?_⟩
  simp only [mem_map, mem_filter, Bool.and_eq_true, Bool.not_eq_true', Bool.or_eq_true, beq_iff_eq]
  constructor
  · rintro ⟨⟨name, kind⟩, ⟨found, ⟨notDot, matched⟩, allowed⟩, rfl⟩
    exact ⟨name, kind, rfl, matched, (listed name kind notDot).mp found, allowed⟩
  · rintro ⟨name, kind, rfl, matched, isKind, allowed⟩
    have present : (tree.kind (directory.push name)).isSome := by simp [isKind]
    have notDot : isDotEntry name = false := (tree.entryName present).notDot
    exact ⟨⟨name, kind⟩, ⟨(listed name kind notDot).mpr isKind, ⟨notDot, matched⟩, allowed⟩, rfl⟩

theorem component_selects (paths : List GlobPath) (inTree : ∀ path ∈ paths, tree.kind path = some .directory) :
    ∃ matched, paths.mapM (selectEntries readDirectory pattern finalSegment) = .ok matched ∧
      ∀ path, path ∈ matched.flatten ↔ ∃ base ∈ paths, ∃ name kind, path = base.push name ∧
        pattern.matches name = true ∧ tree.kind path = some kind ∧ (finalSegment = true ∨ kind = .directory) := by
  induction paths with
  | nil => exact ⟨[], rfl, by simp⟩
  | cons directory _ ih =>
    obtain ⟨matched, ran, selects⟩ := ih fun path found => inTree path (by simp [found])
    obtain ⟨selected, ranHere, here⟩ := selectEntries_selects lists pattern finalSegment (inTree directory (by simp))
    refine ⟨selected :: matched, ?_, fun path => ?_⟩
    · simp only [mapM_cons, ranHere, ran]
      rfl
    · rw [flatten_cons, mem_append, here, selects]
      simp

end

/-- The paths of the tree that segments reach from some directories. A trailing `**` only reaches
directories, as it enters whatever it reaches. -/
def ReachedBy (tree : DirectoryTree) (segments : List PatternSegment) (starts : List GlobPath) (path : GlobPath) : Prop :=
  ∃ base ∈ starts, ∃ names, path = base.extend names ∧ (tree.kind path).isSome ∧
    matchSegments segments names = true ∧
    (segments.getLast? = some .recursive → tree.kind path = some .directory)

/-- What a walk passed through is a directory, unless a component selected it last. -/
theorem directory_before {left : List Name} (middle : GlobPath) (found : (tree.kind (middle.extend left)).isSome)
    (matched : matchSegments rest left = true)
    (lastDirectory : rest = [] ∨ rest.getLast? = some .recursive → tree.kind (middle.extend left) = some .directory) :
    tree.kind middle = some .directory := by
  cases left with
  | nil => simpa using lastDirectory (matchSegments_nil rest matched)
  | cons => exact tree.directory_of_extend middle _ found (by simp)

theorem getLast_cons_of_ne_nil (segment : PatternSegment) (more : rest ≠ []) :
    (segment :: rest).getLast? = rest.getLast? := by
  cases rest with
  | nil => contradiction
  | cons => simp

/-- A recursive segment is a walk and then the segments behind it. -/
theorem reachedBy_recursive
    (walks : ∀ path, path ∈ directories ↔ ∃ base ∈ starts, ∃ names, (∀ name ∈ names, startsWithDot name = false) ∧ path = base.extend names ∧ tree.kind path = some .directory)
    (path : GlobPath) :
    ReachedBy tree rest directories path ↔ ReachedBy tree (.recursive :: rest) starts path := by
  have sameLast : rest ≠ [] → (PatternSegment.recursive :: rest).getLast? = rest.getLast? :=
    getLast_cons_of_ne_nil _
  constructor
  · rintro ⟨middle, entered, left, rfl, present, matched, lastDirectory⟩
    obtain ⟨base, starting, walked, visible, rfl, isDirectory⟩ := (walks middle).mp entered
    refine ⟨base, starting, walked ++ left, by simp, present, ?_, fun last => ?_⟩
    · exact (matchSegments_recursive rest _).mpr ⟨walked, left, rfl, visible, matched⟩
    · by_cases more : rest = []
      · subst more
        have none : left = [] := by simpa [matchSegments] using matched
        subst none
        simpa using isDirectory
      · exact lastDirectory (sameLast more ▸ last)
  · rintro ⟨base, starting, names, rfl, present, matched, lastDirectory⟩
    obtain ⟨walked, left, rfl, visible, matched⟩ := (matchSegments_recursive rest names).mp matched
    have isDirectory : tree.kind (base.extend walked) = some .directory := by
      refine directory_before (base.extend walked) (by simpa using present) matched fun last => ?_
      rw [GlobPath.extend_extend]
      refine lastDirectory ?_
      rcases last with rfl | last
      · rfl
      · rw [sameLast (by rintro rfl; simp at last), last]
    refine ⟨base.extend walked, (walks _).mpr ⟨base, starting, walked, visible, rfl, isDirectory⟩, left, by simp,
      present, matched, fun last => lastDirectory ?_⟩
    rw [sameLast (by rintro rfl; simp at last), last]

/-- A component in front is a selection of entries and then the segments behind it. -/
theorem reachedBy_component {pattern : ComponentPattern} {selected : List GlobPath}
    (selects : ∀ path, path ∈ selected ↔ ∃ base ∈ starts, ∃ name kind, path = base.push name ∧ pattern.matches name = true ∧ tree.kind path = some kind ∧ (rest.isEmpty = true ∨ kind = .directory))
    (path : GlobPath) :
    ReachedBy tree rest selected path ↔ ReachedBy tree (.component pattern :: rest) starts path := by
  constructor
  · rintro ⟨middle, chosen, left, rfl, present, matched, lastDirectory⟩
    obtain ⟨base, starting, name, kind, rfl, matchedName, _, _⟩ := (selects middle).mp chosen
    refine ⟨base, starting, name :: left, by simp, present, by simp [matchSegments, matchedName, matched], fun last => ?_⟩
    have more : rest ≠ [] := by
      rintro rfl
      simp at last
    exact lastDirectory (getLast_cons_of_ne_nil _ more ▸ last)
  · rintro ⟨base, starting, names, rfl, present, matched, lastDirectory⟩
    cases names with
    | nil => simp [matchSegments] at matched
    | cons name left =>
      obtain ⟨matchedName, matched⟩ : pattern.matches name = true ∧ matchSegments rest left = true := by
        simpa [matchSegments] using matched
      have chosen : base.push name ∈ selected := by
        refine (selects _).mpr ⟨base, starting, name, ?_⟩
        by_cases last : rest = []
        · subst last
          have none : left = [] := by simpa [matchSegments] using matched
          subst none
          obtain ⟨kind, isKind⟩ := Option.isSome_iff_exists.mp present
          exact ⟨kind, rfl, matchedName, isKind, .inl rfl⟩
        · have isDirectory : tree.kind (base.push name) = some .directory := by
            refine directory_before (base.push name) (by simpa using present) matched fun ends => ?_
            rw [GlobPath.push_extend]
            refine lastDirectory ?_
            rw [getLast_cons_of_ne_nil _ last]
            exact ends.resolve_left last
          exact ⟨.directory, rfl, matchedName, isDirectory, .inr rfl⟩
      refine ⟨base.push name, chosen, left, by simp, present, matched, fun last => lastDirectory ?_⟩
      rw [getLast_cons_of_ne_nil _ (by rintro rfl; simp at last), last]

theorem expandFrom_reaches (lists : tree.ListedBy readDirectory) (bound : Nat)
    (enough : turnBound tree readDirectory < bound) (segments : List PatternSegment) (noParent : .parent ∉ segments)
    (paths : List GlobPath) (inTree : ∀ path ∈ paths, tree.kind path = some .directory) :
    ∃ result, expandFrom readDirectory bound paths segments = .ok result ∧
      ∀ path, path ∈ result ↔ ReachedBy tree segments paths path := by
  induction segments generalizing paths with
  | nil =>
    refine ⟨paths, rfl, fun path => ⟨fun found => ?_, ?_⟩⟩
    · exact ⟨path, found, [], by simp, by simp [inTree path found], by simp [matchSegments], by simp⟩
    · rintro ⟨base, found, names, rfl, _, matched, _⟩
      have none : names = [] := by simpa [matchSegments] using matched
      subst none
      simpa using found
  | cons segment rest ih =>
    have noParentRest : .parent ∉ rest := fun found => noParent (by simp [found])
    cases segment with
    | parent => simp at noParent
    | recursive =>
      have start : Walking tree readDirectory [] [] := ⟨by simp, by simp, by simp⟩
      obtain ⟨directories, ran, walked⟩ := collectRecursive_all lists bound enough paths [] inTree start
      have walks : ∀ path, path ∈ directories.mergeSort pathOrder ↔ ∃ base ∈ paths, ∃ names,
          (∀ name ∈ names, startsWithDot name = false) ∧ path = base.extend names ∧
            tree.kind path = some .directory := by
        intro path
        rw [mem_mergeSort, walked.mem_iff lists]
      have isDirectory : ∀ path ∈ directories.mergeSort pathOrder, tree.kind path = some .directory := by
        intro path found
        obtain ⟨_, _, _, _, _, isDirectory⟩ := (walks path).mp found
        exact isDirectory
      obtain ⟨result, ranRest, reaches⟩ := ih noParentRest _ isDirectory
      refine ⟨result, ?_, fun path => (reaches path).trans (reachedBy_recursive walks path)⟩
      simp only [expandFrom, expandSegment, ran]
      exact ranRest
    | component pattern =>
      obtain ⟨matched, ran, selects⟩ := component_selects lists pattern rest.isEmpty paths inTree
      cases rest with
      | nil =>
        refine ⟨matched.flatten, by simp only [expandFrom, expandSegment, ran]; rfl, fun path => ?_⟩
        rw [← reachedBy_component selects path]
        constructor
        · intro found
          obtain ⟨_, _, _, kind, rfl, _, isKind, _⟩ := (selects path).mp found
          exact ⟨_, found, [], by simp, by simp [isKind], by simp [matchSegments], by simp⟩
        · rintro ⟨_, found, names, rfl, _, matched, _⟩
          have none : names = [] := by simpa [matchSegments] using matched
          subst none
          simpa using found
      | cons =>
        have isDirectory : ∀ path ∈ matched.flatten, tree.kind path = some .directory := by
          intro path found
          obtain ⟨_, _, _, _, _, _, isKind, allowed⟩ := (selects path).mp found
          simpa [allowed.resolve_left (by simp)] using isKind
        obtain ⟨result, ranRest, reaches⟩ := ih noParentRest _ isDirectory
        refine ⟨result, ?_, fun path => (reaches path).trans (reachedBy_component selects path)⟩
        rw [expandFrom, expandSegment, ran]
        exact ranRest

end Walk

/-! ## Expansion agrees with matching -/

theorem PatternSegment.parse_ne_parent {component : Name} {segment : PatternSegment}
    (parsed : PatternSegment.parse component = .ok segment) : segment ≠ .parent := by
  rintro rfl
  simp only [PatternSegment.parse] at parsed
  split at parsed
  · cases parsed
  · cases pattern : ComponentPattern.parse (nativeChars component) with
    | error | ok =>
      rw [pattern] at parsed
      cases parsed

theorem mapM_parse_noParent (components : List Name) (noDots : ∀ component ∈ components, isDotEntry component = false)
    (segments : List PatternSegment)
    (parsed : components.mapM (fun component =>
      if component = parentDirectory then Except.ok PatternSegment.parent else PatternSegment.parse component) = .ok segments) :
    .parent ∉ segments := by
  induction components generalizing segments with
  | nil =>
    cases parsed
    simp
  | cons component rest ih =>
    have other : component ≠ parentDirectory := by
      rintro rfl
      simpa [isDotEntry, parentDirectory] using noDots parentDirectory (by simp)
    rw [mapM_cons, if_neg other] at parsed
    obtain ⟨_, first, parsed⟩ := bind_ok parsed
    obtain ⟨later, more, parsed⟩ := bind_ok parsed
    cases parsed
    have later := ih (fun component found => noDots component (by simp [found])) later more
    simp [later, (PatternSegment.parse_ne_parent first).symm]

variable {parsed : GlobPattern}

/-- What a pattern without dot segments is read as. -/
theorem GlobPattern.parse_plain {pattern : NativePath} (accepted : GlobPattern.parse pattern = .ok parsed)
    (nonempty : pattern.bytes ≠ []) (noDots : ∀ component ∈ pattern.components.2, isDotEntry component = false) :
    parsed.empty = false ∧ parsed.initial.names = [] ∧ .parent ∉ parsed.segments := by
  have noCurrent : currentDirectory ∉ pattern.components.2 := by
    intro found
    simpa [isDotEntry, currentDirectory] using noDots currentDirectory found
  rw [GlobPattern.parse, if_neg nonempty] at accepted
  split at accepted
  · cases accepted
  · cases segments : parseSegments pattern.components.2 with
    | error =>
      simp only [segments] at accepted
      cases accepted
    | ok found =>
      simp only [segments] at accepted
      cases accepted
      refine ⟨rfl, by simp [noCurrent], ?_⟩
      exact mapM_parse_noParent _ (fun component kept => noDots component (mem_filter.mp kept).1) found segments

/-- Matching a path of a tree is matching its names from where the pattern starts. -/
theorem matches_spelling (plain : parsed.empty = false) (path : GlobPath) (present : (tree.kind path).isSome) :
    parsed.matches path.spelling = true ↔
      path.absolute = parsed.initial.absolute ∧ matchSegments parsed.segments path.names = true := by
  have valid := tree.entryNames path present
  simp only [GlobPattern.matches, plain, components_spelling path valid, filter_entryNames path.names valid]
  by_cases same : parsed.initial.absolute = path.absolute
  · simp [same]
  · simp [same, Ne.symm same]

/-- What a pattern that is not empty expands to. -/
theorem expand_plain {E : Type} {tree : DirectoryTree} {readDirectory : GlobPath → Except E (List DirectoryEntry)}
    (lists : tree.ListedBy readDirectory) (plain : parsed.empty = false) (atStart : parsed.initial.names = [])
    (noParent : .parent ∉ parsed.segments) (bound : Nat) (enough : turnBound tree readDirectory < bound) :
    ∃ paths, parsed.expand readDirectory bound = .ok paths ∧ paths.Pairwise (comparePaths · · = .lt) ∧
      ∀ path, path ∈ paths ↔ (tree.kind path).isSome ∧ parsed.matches path.spelling = true ∧
        (parsed.segments.getLast? = some .recursive → tree.kind path = some .directory) := by
  have start : parsed.initial = ⟨parsed.initial.absolute, []⟩ := by rw [← atStart]
  have inTree : ∀ path ∈ [parsed.initial], tree.kind path = some .directory := by
    intro path found
    rw [mem_singleton.mp found, start]
    exact tree.root _
  obtain ⟨reached, ran, reaches⟩ :=
    expandFrom_reaches lists bound enough parsed.segments noParent [parsed.initial] inTree
  refine ⟨dedup (reached.mergeSort pathOrder), ?_, sorted_increasing reached, fun path => ?_⟩
  · rw [GlobPattern.expand, plain, if_neg (by simp), ran]
    rfl
  · rw [mem_dedup, mem_mergeSort, reaches]
    constructor
    · rintro ⟨_, starting, names, rfl, present, matched, lastDirectory⟩
      obtain rfl := mem_singleton.mp starting
      refine ⟨present, (matches_spelling tree plain _ present).mpr ⟨rfl, ?_⟩, lastDirectory⟩
      simpa [extend, atStart] using matched
    · rintro ⟨present, matched, lastDirectory⟩
      obtain ⟨sameRoot, matched⟩ := (matches_spelling tree plain path present).mp matched
      refine ⟨parsed.initial, by simp, path.names, ?_, present, matched, lastDirectory⟩
      rw [extend, atStart, ← sameRoot, nil_append]

/-- Over a finite tree the walk of a pattern without dot segments ends. What it returns is strictly
ordered and is every path of the tree that the pattern matches; where the pattern ends in `**`,
only those that are directories. The empty pattern has no paths. -/
theorem expand_agrees_with_matches {E : Type} (tree : DirectoryTree)
    (readDirectory : GlobPath → Except E (List DirectoryEntry)) (lists : tree.ListedBy readDirectory)
    (pattern : NativePath) (parsed : GlobPattern) (accepted : GlobPattern.parse pattern = .ok parsed)
    (noDots : ∀ component ∈ pattern.components.2, isDotEntry component = false) :
    ∃ enough, ∀ bound ≥ enough, ∃ paths, parsed.expand readDirectory bound = .ok paths ∧
      paths.Pairwise (comparePaths · · = .lt) ∧
      ∀ path, path ∈ paths ↔ pattern.bytes ≠ [] ∧ (tree.kind path).isSome ∧
        parsed.matches path.spelling = true ∧
        (parsed.segments.getLast? = some .recursive → tree.kind path = some .directory) := by
  refine ⟨turnBound tree readDirectory + 1, fun bound enough => ?_⟩
  by_cases empty : pattern.bytes = []
  · rw [GlobPattern.parse, if_pos empty] at accepted
    cases accepted
    exact ⟨[], rfl, .nil, by simp [empty]⟩
  · obtain ⟨plain, atStart, noParent⟩ := GlobPattern.parse_plain accepted empty noDots
    obtain ⟨paths, ran, sorted, exactly⟩ := expand_plain lists plain atStart noParent bound (by omega)
    refine ⟨paths, ran, sorted, fun path => ?_⟩
    rw [exactly]
    exact ⟨fun holds => ⟨empty, holds⟩, fun holds => holds.2⟩

/-- The working directory holds one file. -/
def singleFile : DirectoryTree where
  kind path := if path.names = [] then some .directory else if path = ⟨false, [['f'.toUInt8]]⟩ then some .file else none
  root absolute := rfl
  parent path name found := by
    obtain ⟨absolute, names⟩ := path
    cases names with
    | nil => rfl
    | cons first rest => simp [GlobPath.push] at found
  entryNames path found name member := by
    split at found
    · simp_all
    · split at found
      · simp_all only [mem_singleton]
        exact ⟨by simp, by decide, by decide⟩
      · simp at found
  paths := {⟨true, []⟩, ⟨false, []⟩, ⟨false, [['f'.toUInt8]]⟩}
  complete path found := by
    obtain ⟨absolute, names⟩ := path
    split at found
    · cases absolute <;> simp_all
    · split at found
      · simp_all
      · simp at found

def listSingleFile (directory : GlobPath) : Except Unit (List DirectoryEntry) :=
  if directory = ⟨true, []⟩ then .ok []
  else if directory = ⟨false, [currentDirectory]⟩ then
    .ok [⟨parentDirectory, .directory⟩, ⟨['f'.toUInt8], .file⟩, ⟨currentDirectory, .directory⟩]
  else .error ()

theorem singleFile_listed : singleFile.ListedBy listSingleFile where
  listed directory isDirectory := by
    obtain ⟨absolute, names⟩ := directory
    have atRoot : names = [] := by
      simp only [singleFile] at isDirectory
      split at isDirectory
      · assumption
      · split at isDirectory <;> simp at isDirectory
    subst atRoot
    cases absolute with
    | true => exact ⟨[], rfl, by simp [singleFile, GlobPath.push]⟩
    | false =>
      refine ⟨_, rfl, fun name kind notDot => ?_⟩
      simp only [isDotEntry, Bool.or_eq_false_iff, beq_eq_false_iff_ne] at notDot
      have notParent : name ≠ parentDirectory := notDot.2
      have notCurrent : name ≠ currentDirectory := notDot.1
      simp only [mem_cons, DirectoryEntry.mk.injEq, notParent, notCurrent, false_and, false_or, not_mem_nil,
        or_false, singleFile, GlobPath.push, nil_append, cons_ne_nil, if_false, GlobPath.mk.injEq, true_and,
        List.cons.injEq, and_true]
      by_cases same : name = ['f'.toUInt8]
      · simp only [same, true_and, if_true, Option.some.injEq]
        exact eq_comm
      · simp [same]

theorem expand_agrees_with_matches_single_file :
    ∃ enough, ∀ bound ≥ enough, ∃ paths,
      GlobPattern.expand listSingleFile ⟨⟨false, []⟩, [.recursive, .component ⟨[.anyOne], false⟩], false⟩ bound = .ok paths ∧
        ⟨false, [['f'.toUInt8]]⟩ ∈ paths := by
  obtain ⟨enough, expands⟩ := expand_agrees_with_matches singleFile listSingleFile singleFile_listed
    ⟨['*'.toUInt8, '*'.toUInt8, '/'.toUInt8, '?'.toUInt8]⟩ ⟨⟨false, []⟩, [.recursive, .component ⟨[.anyOne], false⟩], false⟩
    (by decide) (by decide)
  refine ⟨enough, fun bound large => ?_⟩
  obtain ⟨paths, ran, _, exactly⟩ := expands bound large
  refine ⟨paths, ran, (exactly _).mpr ⟨by decide, by decide, ?_, by decide⟩⟩
  have components : (spelling ⟨false, [['f'.toUInt8]]⟩).components = (false, [['f'.toUInt8]]) := by decide
  have selected : ComponentPattern.matches ⟨[.anyOne], false⟩ ['f'.toUInt8] = true := by decide
  have kept : ['f'.toUInt8] ≠ currentDirectory := by decide
  simp [GlobPattern.matches, components, kept, matchSegments, selected]

/-- A file is no place to walk into: `**` matches its path and does not expand to it. -/
theorem expand_omits_file_behind_trailing_recursion :
    GlobPattern.parse ⟨['*'.toUInt8, '*'.toUInt8]⟩ = .ok ⟨⟨false, []⟩, [.recursive], false⟩ ∧
    singleFile.ListedBy listSingleFile ∧ singleFile.kind ⟨false, [['f'.toUInt8]]⟩ = some .file ∧
    GlobPattern.matches ⟨⟨false, []⟩, [.recursive], false⟩ (spelling ⟨false, [['f'.toUInt8]]⟩) = true ∧
    (∀ bound, GlobPattern.expand listSingleFile ⟨⟨false, []⟩, [.recursive], false⟩ (bound + 2) = .ok [⟨false, []⟩]) ∧
    (⟨false, [['f'.toUInt8]]⟩ : GlobPath) ∉ [(⟨false, []⟩ : GlobPath)] := by
  refine ⟨by decide, singleFile_listed, by decide, ?_, fun bound => ?_, by decide⟩
  · have components : (spelling ⟨false, [['f'.toUInt8]]⟩).components = (false, [['f'.toUInt8]]) := by decide
    have kept : ['f'.toUInt8] ≠ currentDirectory := by decide
    have visible : startsWithDot ['f'.toUInt8] = false := by decide
    simp [GlobPattern.matches, components, kept, matchSegments, visible]
  · have root : singleFile.kind ⟨false, []⟩ = some .directory := rfl
    have noChildren : childrenOf listSingleFile ⟨false, []⟩ = [] := by
      refine eq_nil_iff_forall_not_mem.mpr fun child isChild => ?_
      obtain ⟨_, rfl, _, isDirectory⟩ := (mem_childrenOf singleFile_listed root child).mp isChild
      simp only [singleFile, GlobPath.push, nil_append, cons_ne_nil, if_false] at isDirectory
      split at isDirectory <;> simp at isDirectory
    obtain ⟨_, read, _⟩ := readEntries_listed singleFile_listed root
    simp only [childrenOf, read] at noChildren
    simp [GlobPattern.expand, expandFrom, expandSegment, collectRecursive, read, noChildren, dedup, bind, Except.bind,
      pure, Except.pure]

end Opaal.Runtime.Glob
