import Opaal.Runtime.JsonDecoder

/-!
# Explicit globbing

Patterns over native path components, matched against a spelled path or expanded by walking
directories through a reader that the host provides.
-/

namespace Opaal.Runtime.Glob


/-- The bytes of one path component. -/
abbrev Name := List UInt8

/-! ## Native characters -/

/-- A scalar of a name, or a byte that belongs to none. -/
inductive NativeChar where
  | unicode (c : Char)
  | invalid (byte : UInt8)
deriving DecidableEq

def nativeOrder : NativeChar → Nat
  | .unicode c => c.toNat
  | .invalid byte => 0x110000 + byte.toNat

/-- How many of some bytes start no scalar: the longest beginning of one, at least one byte; none
when the bytes end inside a scalar. -/
def errorLen (rest : List UInt8) : Option Nat :=
  if endsInsideScalar rest then none
  else some (((List.range 4).reverse.find? fun size => 0 < size && size < rest.length && endsInsideScalar (rest.take size)).getD 1)

/-- The characters of a name, in at most `bound` runs. -/
def nativeCharsFrom : Nat → List UInt8 → List NativeChar
  | 0, _ => []
  | bound + 1, bytes =>
    if bytes = [] then []
    else
      match Text.decode bytes with
      | some text => text.map .unicode
      | none =>
        let valid := validUpTo bytes
        let text := ((Text.decode (bytes.take valid)).getD []).map NativeChar.unicode
        let rest := bytes.drop valid
        let invalid := min ((errorLen rest).getD 1) rest.length
        text ++ (rest.take invalid).map .invalid ++ nativeCharsFrom bound (rest.drop invalid)

def nativeChars (name : Name) : List NativeChar := nativeCharsFrom (name.length + 1) name

def isDotEntry (name : Name) : Bool := name == ['.'.toUInt8] || name == ['.'.toUInt8, '.'.toUInt8]

def startsWithDot (name : Name) : Bool := (nativeChars name).head? == some (.unicode '.')

/-! ## Patterns of one component -/

structure GlobPatternError where
  message : String
deriving DecidableEq

structure CharacterClass where
  negated : Bool
  ranges : List (NativeChar × NativeChar)
deriving DecidableEq

inductive PatternAtom where
  | literal (character : NativeChar)
  | anyOne
  | anyMany
  | characterClass (items : CharacterClass)
deriving DecidableEq

/-- The items of a class up to its bracket, each with whether it was escaped. -/
def classItems : List NativeChar → List (NativeChar × Bool) → Except GlobPatternError (List (NativeChar × Bool) × List NativeChar)
  | [], _ => .error ⟨"a character class is missing `]`"⟩
  | .unicode ']' :: rest, items => .ok (items, rest)
  | .unicode '\\' :: rest, items =>
    match rest with
    | [] => .error ⟨"a character-class escape has no following character"⟩
    | character :: rest => classItems rest (items ++ [(character, true)])
  | character :: rest, items => classItems rest (items ++ [(character, false)])

/-- Items as ranges; a plain dash between two of them spans one. -/
def classRanges : List (NativeChar × Bool) → Except GlobPatternError (List (NativeChar × NativeChar))
  | (start, _) :: (dash, dashEscaped) :: (stop, stopEscaped) :: rest =>
    if (dash, dashEscaped) = (.unicode '-', false) then
      if nativeOrder stop < nativeOrder start then .error ⟨"a character-class range cannot descend"⟩
      else do return (start, stop) :: (← classRanges rest)
    else do return (start, start) :: (← classRanges ((dash, dashEscaped) :: (stop, stopEscaped) :: rest))
  | (start, _) :: rest => do return (start, start) :: (← classRanges rest)
  | [] => .ok []

/-- A class after its opening bracket. -/
def CharacterClass.parse (pattern : List NativeChar) : Except GlobPatternError (CharacterClass × List NativeChar) := do
  let (negated, pattern) := match pattern with
    | .unicode '!' :: rest => (true, rest)
    | .unicode '^' :: rest => (true, rest)
    | pattern => (false, pattern)
  let (items, rest) ← classItems pattern []
  if items = [] then .error ⟨"a character class cannot be empty"⟩
  else return (⟨negated, ← classRanges items⟩, rest)

def CharacterClass.matches (items : CharacterClass) (character : NativeChar) : Bool :=
  let value := nativeOrder character
  let contained := items.ranges.any fun (start, stop) => nativeOrder start ≤ value && value ≤ nativeOrder stop
  contained != items.negated

/-- The atoms of a component, in at most `bound` of them. -/
def parseAtoms : Nat → List NativeChar → List PatternAtom → Except GlobPatternError (List PatternAtom)
  | 0, _, atoms => .ok atoms
  | _ + 1, [], atoms => .ok atoms
  | bound + 1, character :: rest, atoms =>
    if character = .unicode '\\' then
      match rest with
      | [] => .error ⟨"a trailing escape has no pattern character"⟩
      | escaped :: rest => parseAtoms bound rest (atoms ++ [.literal escaped])
    else if character = .unicode '*' then
      parseAtoms bound rest (if atoms.getLast? = some .anyMany then atoms else atoms ++ [.anyMany])
    else if character = .unicode '?' then parseAtoms bound rest (atoms ++ [.anyOne])
    else if character = .unicode '[' then do
      let (items, rest) ← CharacterClass.parse rest
      parseAtoms bound rest (atoms ++ [.characterClass items])
    else parseAtoms bound rest (atoms ++ [.literal character])

structure ComponentPattern where
  atoms : List PatternAtom
  explicitHidden : Bool
deriving DecidableEq

def ComponentPattern.parse (chars : List NativeChar) : Except GlobPatternError ComponentPattern := do
  let atoms ← parseAtoms (chars.length + 1) chars []
  return ⟨atoms, atoms.head? == some (.literal (.unicode '.'))⟩

/-- Every place holds whether it or an earlier one did. -/
def prefixOr (seen : Bool) : List Bool → List Bool
  | [] => []
  | here :: rest => (seen || here) :: prefixOr (seen || here) rest

/-- Which prefixes of a name an atom more matches, from those matched before it. -/
def advance (chars : List NativeChar) (current : List Bool) : PatternAtom → List Bool
  | .anyMany => prefixOr false current
  | .anyOne => false :: chars.zipWith (fun _ reached => reached) current
  | .literal expected => false :: chars.zipWith (fun actual reached => reached && actual == expected) current
  | .characterClass items => false :: chars.zipWith (fun actual reached => reached && items.matches actual) current

def ComponentPattern.matches (pattern : ComponentPattern) (name : Name) : Bool :=
  if startsWithDot name && !pattern.explicitHidden then false
  else
    let chars := nativeChars name
    let start := true :: List.replicate chars.length false
    (pattern.atoms.foldl (advance chars) start).getLast?.getD false

/-! ## Patterns -/

/-- One segment; consecutive stars alone recurse. -/
inductive PatternSegment where
  | parent
  | recursive
  | component (pattern : ComponentPattern)
deriving DecidableEq

def PatternSegment.parse (component : Name) : Except GlobPatternError PatternSegment := do
  let chars := nativeChars component
  if chars = [.unicode '*', .unicode '*'] then return .recursive else return .component (← ComponentPattern.parse chars)

/-- A path as its components from the root or from the working directory. -/
structure GlobPath where
  absolute : Bool
  names : List Name
deriving DecidableEq

structure GlobPattern where
  initial : GlobPath
  segments : List PatternSegment
  empty : Bool
deriving DecidableEq

def currentDirectory : Name := ['.'.toUInt8]

def parentDirectory : Name := ['.'.toUInt8, '.'.toUInt8]

/-- The segments of a pattern; a leading current directory is none. -/
def parseSegments (components : List Name) : Except GlobPatternError (List PatternSegment) :=
  (components.filter (· ≠ currentDirectory)).mapM fun component =>
    if component = parentDirectory then .ok .parent else PatternSegment.parse component

def GlobPattern.parse (pattern : NativePath) : Except GlobPatternError GlobPattern := do
  if pattern.bytes = [] then return ⟨⟨false, []⟩, [], true⟩
  else if pattern.bytes.contains 0 then .error ⟨"patterns cannot contain NUL"⟩
  else
    let (absolute, components) := pattern.components
    let segments ← parseSegments components
    let sawCurdir := components.contains currentDirectory
    let initial := if sawCurdir && !absolute && segments.isEmpty then [currentDirectory] else []
    return ⟨⟨absolute, initial⟩, segments, false⟩

/-! ## Matching a spelled path -/

def matchSegments : List PatternSegment → List Name → Bool
  | [], candidate => candidate.isEmpty
  | .parent :: _, [] => false
  | .parent :: rest, name :: candidate => name == parentDirectory && matchSegments rest candidate
  | .recursive :: rest, [] => matchSegments rest []
  | .recursive :: rest, name :: candidate =>
    matchSegments rest (name :: candidate) || (!startsWithDot name && matchSegments (.recursive :: rest) candidate)
  | .component _ :: _, [] => false
  | .component pattern :: rest, name :: candidate => pattern.matches name && matchSegments rest candidate
termination_by segments candidate => (segments.length, candidate.length)

def GlobPattern.matches (pattern : GlobPattern) (candidate : NativePath) : Bool :=
  if pattern.empty then candidate.bytes.isEmpty
  else
    let (absolute, components) := candidate.components
    if pattern.initial.absolute != absolute then false
    else matchSegments pattern.segments (components.filter (· ≠ currentDirectory))

/-! ## Expanding over directories -/

inductive DirectoryEntryKind where
  | file
  | directory
  | symlink
  | other
deriving DecidableEq

structure DirectoryEntry where
  name : Name
  kind : DirectoryEntryKind
deriving DecidableEq

/-- What the reader is asked for: the empty path is the working directory. -/
def readPath (directory : GlobPath) : GlobPath :=
  if directory.absolute = false ∧ directory.names = [] then ⟨false, [currentDirectory]⟩ else directory

/-- Why an expansion ends without paths; `unbounded` stands for a walk that does not end. -/
inductive ExpandError (E : Type) where
  | host (error : E)
  | unbounded

section Expand

variable {E : Type} (readDirectory : GlobPath → Except E (List DirectoryEntry))

def readEntries (directory : GlobPath) : Except (ExpandError E) (List DirectoryEntry) :=
  match readDirectory (readPath directory) with
  | .ok entries => .ok (entries.mergeSort fun left right => (compare left.name right.name).isLE)
  | .error error => .error (.host error)

def GlobPath.push (path : GlobPath) (name : Name) : GlobPath := ⟨path.absolute, path.names ++ [name]⟩

/-- The entries of a directory that a recursive walk enters. -/
def visibleDirectories (directory : GlobPath) (entries : List DirectoryEntry) : List GlobPath :=
  (entries.filter fun entry =>
    entry.kind == .directory && !isDotEntry entry.name && !startsWithDot entry.name).map (directory.push ·.name)

/-- Directories below a stack of pending ones, each entered once; the next one is last. -/
def collectRecursive : Nat → List GlobPath → List GlobPath → Except (ExpandError E) (List GlobPath)
  | 0, _, _ => .error .unbounded
  | bound + 1, directories, pending =>
    match pending.getLast? with
    | none => .ok directories
    | some directory =>
      if directory ∈ directories then collectRecursive bound directories pending.dropLast
      else do
        let entries ← readEntries readDirectory directory
        let children := visibleDirectories directory entries
        collectRecursive bound (directories ++ [directory]) (pending.dropLast ++ children.reverse)

/-- The kinds of a component in their order: current directory, parent, name. -/
def componentRank (name : Name) : Nat :=
  if name = currentDirectory then 0 else if name = parentDirectory then 1 else 2

def compareComponents : Name → Name → Ordering := compareLex (compareOn componentRank) compare

def compareNames (left right : GlobPath) : Ordering := List.compareLex compareComponents left.names right.names

/-- Paths are ordered component by component, the root before any other. -/
def comparePaths : GlobPath → GlobPath → Ordering := compareLex (compareOn fun path => !path.absolute) compareNames

def pathOrder (left right : GlobPath) : Bool := (comparePaths left right).isLE

/-- The entries of a directory that one component selects; only the last one selects others than directories. -/
def selectEntries (pattern : ComponentPattern) (finalSegment : Bool) (directory : GlobPath) :
    Except (ExpandError E) (List GlobPath) := do
  let entries ← readEntries readDirectory directory
  return (entries.filter fun entry => !isDotEntry entry.name && pattern.matches entry.name &&
    (finalSegment || entry.kind == .directory)).map (directory.push ·.name)

/-- The paths behind one segment more. -/
def expandSegment (bound : Nat) (finalSegment : Bool) (paths : List GlobPath) :
    PatternSegment → Except (ExpandError E) (List GlobPath)
  | .parent => .ok (paths.map (·.push parentDirectory))
  | .recursive => do
    let directories ← paths.foldlM (fun directories path => collectRecursive readDirectory bound directories [path]) []
    return directories.mergeSort pathOrder
  | .component pattern => do
    let matched ← paths.mapM (selectEntries readDirectory pattern finalSegment)
    return matched.flatten

def expandFrom (bound : Nat) (paths : List GlobPath) : List PatternSegment → Except (ExpandError E) (List GlobPath)
  | [] => .ok paths
  | segment :: rest => do expandFrom bound (← expandSegment readDirectory bound rest.isEmpty paths segment) rest

/-- Consecutive equal paths once. -/
def dedup : List GlobPath → List GlobPath
  | first :: second :: rest => if first = second then dedup (second :: rest) else first :: dedup (second :: rest)
  | paths => paths

/-- The paths of a pattern; `bound` bounds the loop of each recursive walk. -/
def GlobPattern.expand (pattern : GlobPattern) (bound : Nat) : Except (ExpandError E) (List GlobPath) :=
  if pattern.empty then .ok []
  else do
    let paths ← expandFrom readDirectory bound [pattern.initial] pattern.segments
    return dedup (paths.mergeSort pathOrder)

end Expand

end Opaal.Runtime.Glob
