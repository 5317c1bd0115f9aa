import Opaal.Order.Recent
import Opaal.Runtime.Value
import Opaal.Text.Ascii

/-!
# Interactive history

One file holds the submitted sources of all sessions, an entry on a line.  A session keeps
what it last read and the entries it has not written yet; under the lock of the file it
reads all lines, adds its own entries and writes the latest ones back.
-/

namespace Opaal.Cli

open Opaal.Text Opaal.Order List

/-! ## Errors of the host -/

inductive IoErrorKind where
  | invalidData
  | invalidInput
  | permissionDenied
  | notFound
  | other
deriving DecidableEq

structure IoError where
  kind : IoErrorKind
  message : String
deriving DecidableEq

structure HistoryError where
  message : String
  source : Option IoError
deriving DecidableEq

/-! ## Entries -/

def encodeChar : Char → List Char
  | '\\' => ['\\', '\\']
  | '\n' => ['\\', 'n']
  | '\r' => ['\\', 'r']
  | '\x00' => ['\\', '0']
  | character => [character]

def encodeEntry (entry : List Char) : List Char := entry.flatMap encodeChar

def decodeEscape : Char → Except IoError Char
  | '\\' => .ok '\\'
  | 'n' => .ok '\n'
  | 'r' => .ok '\r'
  | '0' => .ok '\x00'
  | other => .error ⟨.invalidData, "invalid history escape \\" ++ String.singleton other⟩

def decodeEntry : List Char → Except IoError (List Char)
  | [] => .ok []
  | ['\\'] => .error ⟨.invalidData, "unterminated history escape"⟩
  | '\\' :: escaped :: rest => do
    let character ← decodeEscape escaped
    let decoded ← decodeEntry rest
    .ok (character :: decoded)
  | character :: rest => do
    let decoded ← decodeEntry rest
    .ok (character :: decoded)

/-! ## Lines -/

def lineFeed : UInt8 := 10

def carriageReturn : UInt8 := 13

/-- A line ends with its line feed, and a carriage return before that belongs to the end. -/
def stripReturn (line : List UInt8) : List UInt8 :=
  if line.getLast? = some carriageReturn then line.dropLast else line

/-- The lines of a file, of which the last may lack its end; `line` is what was read of the
current one. -/
def linesFrom (line : List UInt8) : List UInt8 → List (List UInt8)
  | [] => if line = [] then [] else [line]
  | byte :: rest => if byte = lineFeed then stripReturn line :: linesFrom [] rest else linesFrom (line ++ [byte]) rest

def lines (content : List UInt8) : List (List UInt8) := linesFrom [] content

def readLine (line : List UInt8) : Except IoError (List Char) :=
  match decode line with
  | some text => .ok text
  | none => .error ⟨.invalidData, "stream did not contain valid UTF-8"⟩

def readEntry (line : List UInt8) : Except IoError (List Char) := do
  let text ← readLine line
  decodeEntry text

def readEntries (content : List UInt8) : Except IoError (List (List Char)) := (lines content).mapM readEntry

def writeEntries (entries : List (List Char)) : List UInt8 :=
  entries.flatMap fun entry => bytes (encodeEntry entry) ++ [lineFeed]

/-! ## Sessions -/

/-- What the host does to one use of the file. -/
structure HistoryIo where
  /-- Creating the file where it is missing. -/
  prepared : Except IoError Unit
  /-- Opening, checking and locking it. -/
  opened : Except IoError Unit
  /-- A read that fails, after so many lines. -/
  readFault : Option (Nat × IoError)
  /-- A write that fails, and what the file then holds. -/
  writeFault : Option (IoError × List UInt8)

/-- All I/O succeeds. -/
def HistoryIo.calm : HistoryIo := ⟨.ok (), .ok (), none, none⟩

def defaultHistoryCapacity : Nat := 1000

inductive HistorySelection where
  | disabled
  | persistent (path : Runtime.NativePath)

structure EditorHistory where
  entries : List (List Char)
  pending : List (List Char)
  capacity : Nat
  file : Option Runtime.NativePath

/-- A session's history and the content of the file. -/
abbrev HistoryM (ε α : Type) := EStateM ε (EditorHistory × List UInt8) α

def readAll (io : HistoryIo) (content : List UInt8) : Except IoError (List (List Char)) :=
  match io.readFault with
  | none => readEntries content
  | some (count, error) => do
    let _ ← ((lines content).take count).mapM readEntry
    .error error

/-- The entries to keep: no adjacent duplicates, and no more than the capacity. -/
def merge (capacity : Nat) (entries : List (List Char)) : List (List Char) :=
  let deduplicated := entries.foldl push []
  deduplicated.drop (deduplicated.length - capacity)

def EditorHistory.sync (io : HistoryIo) : HistoryM IoError Unit := do
  let (history, content) ← get
  match history.file with
  | none => return
  | some _ =>
    match io.opened, readAll io content with
    | .error error, _ => throw error
    | .ok _, .error error => throw error
    | .ok _, .ok found =>
      let merged := merge history.capacity (found ++ history.pending)
      match io.writeFault with
      | some (error, left) =>
        set (history, left)
        throw error
      | none => set ({ history with entries := merged, pending := [] }, writeEntries merged)

def EditorHistory.record (io : HistoryIo) (source : List Char) : HistoryM HistoryError Bool := do
  let (history, content) ← get
  if history.capacity = 0 ∨ source = [] ∨ history.entries.getLast? = some source then return false
  else
    set ({ history with pending := history.pending ++ [source] }, content)
    EStateM.adaptExcept (fun error => ⟨"cannot synchronize persistent history", some error⟩) (sync io)
    return true

/-- The history of a new session; `shown` is the path as errors show it. -/
def EditorHistory.openHistory (io : HistoryIo) (shown : String) (content : List UInt8) :
    HistorySelection → EStateM.Result HistoryError (List UInt8) EditorHistory
  | .disabled => .ok ⟨[], [], 0, none⟩ content
  | .persistent path =>
    match io.prepared with
    | .error error => .error ⟨"cannot initialize history at " ++ shown ++ ": " ++ error.message, some error⟩ content
    | .ok _ =>
      match sync io (⟨[], [], defaultHistoryCapacity, some path⟩, content) with
      | .ok _ (history, content) => .ok history content
      | .error error (_, content) => .error ⟨"cannot load persistent history", some error⟩ content

/-! ## The coding of entries -/

/-- A character is escaped by one that decodes to it, or stands for itself. -/
theorem encodeChar_cases (character : Char) :
    (∃ escaped, encodeChar character = ['\\', escaped] ∧ decodeEscape escaped = .ok character ∧
      escaped ≠ '\n' ∧ escaped ≠ '\r') ∨
      (encodeChar character = [character] ∧ character ≠ '\\' ∧ character ≠ '\n' ∧ character ≠ '\r') := by
  unfold encodeChar
  split
  · exact .inl ⟨'\\', rfl, rfl, by decide, by decide⟩
  · exact .inl ⟨'n', rfl, rfl, by decide, by decide⟩
  · exact .inl ⟨'r', rfl, rfl, by decide, by decide⟩
  · exact .inl ⟨'0', rfl, rfl, by decide, by decide⟩
  · next escape feed return_ _ => exact .inr ⟨rfl, escape, feed, return_⟩

theorem decodeEntry_encodeChar (character : Char) (rest : List Char) :
    decodeEntry (encodeChar character ++ rest) = (decodeEntry rest).map (character :: ·) := by
  rcases encodeChar_cases character with ⟨_, encoded, decodes, _⟩ | ⟨encoded, plain, _⟩
  · rw [encoded, cons_append, singleton_append, decodeEntry, decodes]
    cases decodeEntry rest <;> rfl
  · rw [encoded, singleton_append, decodeEntry]
    · cases decodeEntry rest <;> rfl
    · exact fun escape _ => plain escape
    · exact fun _ _ escape _ => plain escape

variable (entry : List Char) (entries : List (List Char))

theorem decodeEntry_encodeEntry : decodeEntry (encodeEntry entry) = .ok entry := by
  induction entry with
  | nil => rfl
  | cons _ _ ih =>
    unfold encodeEntry at ih ⊢
    rw [flatMap_cons, decodeEntry_encodeChar, ih]
    rfl

/-- An encoded entry has no line break. -/
theorem encodeEntry_unbroken {entry : List Char} {encoded : Char} (member : encoded ∈ encodeEntry entry) :
    encoded ≠ '\n' ∧ encoded ≠ '\r' := by
  obtain ⟨character, _, here⟩ := mem_flatMap.mp member
  rcases encodeChar_cases character with ⟨_, pair, _, feed, return_⟩ | ⟨single, _, feed, return_⟩
  · rw [pair] at here
    rcases mem_cons.mp here with rfl | last
    · decide
    · rw [mem_singleton.mp last]
      exact ⟨feed, return_⟩
  · rw [single] at here
    rw [mem_singleton.mp here]
    exact ⟨feed, return_⟩

/-! ## Reading what was written -/

theorem lineFeed_not_mem : lineFeed ∉ bytes (encodeEntry entry) := by
  intro member
  exact (encodeEntry_unbroken (mem_bytes_ascii (show ('\n' : Char).toNat < 128 by decide) member)).1 rfl

theorem carriageReturn_not_mem : carriageReturn ∉ bytes (encodeEntry entry) := by
  intro member
  exact (encodeEntry_unbroken (mem_bytes_ascii (show ('\r' : Char).toNat < 128 by decide) member)).2 rfl

theorem linesFrom_append (line front rest : List UInt8) (unbroken : lineFeed ∉ front) :
    linesFrom line (front ++ lineFeed :: rest) = stripReturn (line ++ front) :: linesFrom [] rest := by
  induction front generalizing line with
  | nil => rw [nil_append, linesFrom, if_pos rfl, append_nil]
  | cons byte _ ih =>
    have different : byte ≠ lineFeed := fun same => unbroken (same ▸ mem_cons_self)
    rw [cons_append, linesFrom, if_neg different, ih _ fun later => unbroken (mem_cons_of_mem _ later),
      append_assoc, singleton_append]

/-- The lines of a written file are the encoded entries. -/
theorem lines_writeEntries :
    lines (writeEntries entries) = entries.map fun entry => bytes (encodeEntry entry) := by
  unfold lines writeEntries
  induction entries with
  | nil => rfl
  | cons entry _ ih =>
    have kept : stripReturn (bytes (encodeEntry entry)) = bytes (encodeEntry entry) := by
      unfold stripReturn
      rw [if_neg]
      intro last
      exact carriageReturn_not_mem entry (mem_of_getLast? last)
    rw [flatMap_cons, append_assoc, singleton_append, linesFrom_append _ _ _ (lineFeed_not_mem entry),
      nil_append, kept, ih, map_cons]

theorem readEntry_encoded : readEntry (bytes (encodeEntry entry)) = .ok entry := by
  unfold readEntry readLine
  rw [decode_bytes]
  exact decodeEntry_encodeEntry entry

theorem readEntries_writeEntries : readEntries (writeEntries entries) = .ok entries := by
  unfold readEntries
  rw [lines_writeEntries]
  induction entries with
  | nil => rfl
  | cons _ _ ih =>
    rw [map_cons, mapM_cons, readEntry_encoded, ih]
    rfl

end Opaal.Cli
