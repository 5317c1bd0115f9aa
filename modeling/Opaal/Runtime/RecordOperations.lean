import Opaal.Order.Entries
import Opaal.Runtime.LiteralSearch

/-!
# Operations on records

Records keep their entries in the order of insertion.  Selecting and merging sort the positions of
the entries by the bytes of their keys, and scatter what they find back to the order of insertion.
-/

namespace Opaal.Runtime

open Opaal.Machine
open Opaal.Syntax (Span)
open ListOperations
open Evaluation (EvalM lifted visit checkCancel retainCollectionBytes)

variable {F C : Type}

/-- What an operation on a record is given besides the record. -/
inductive RecordOperation (F C : Type) where
  | keys
  | has (key : String)
  | getOr (key : String) (default : Value F C)
  | set (key : String) (value : Value F C)
  | select (keys : List (Value F C))
  | merge (right : List (String × Value F C))

/-! ## The operations -/

section Operations

variable (operation : String) (span : Span)

def recordError {α : Type} (message : String) : EvalM α := throw (.invalidArgument operation message span)

def recordCompare (left right : String) : EvalM Ordering := do
  visit span
  lifted (ListOperations.compareKeyBytes (utf8 left) (utf8 right) span)

/-- The first position of a key. -/
def recordPosition (key : String) : List String → EvalM (Option Nat)
  | [] => return none
  | candidate :: keys => do
    if (← recordCompare span candidate key) = .eq then return some 0
    else return (← recordPosition key keys).map (· + 1)

def retainRecordItem : EvalM Unit := do
  checkCancel span
  lifted (ListOperations.spend (ResourceBudget.chargeCollectionItems 1) span)

def retainRecordChunks : List (List UInt8) → EvalM Unit
  | [] => return ()
  | chunk :: chunks => do
    visit span
    retainCollectionBytes chunk.length span
    retainRecordChunks chunks

def retainRecordKey (key : String) : EvalM Unit := retainRecordChunks span ((utf8 key).toChunks keyChunkSize)

def copyRecordEntry (output : List (String × Value F C)) (key : String) (value : Value F C) :
    EvalM (List (String × Value F C)) := do
  visit span
  retainRecordKey span key
  retainRecordItem span
  return output ++ [(key, value)]

/-- Room for elements of a size. -/
def recordWorkspace (length size : Nat) : EvalM Unit := do
  checkCancel span
  lifted (retainElements length size span)
  lifted (tryReserveExact span)

/-- Room for entries: a key is a pointer and a length. -/
def entryWorkspace (length : Nat) : EvalM Unit := do
  recordWorkspace span length (16 + (← read).sizeOfValue)

def visitEach : Nat → EvalM Unit
  | 0 => return ()
  | count + 1 => do
    visit span
    visitEach count

/-- Keys of records are sorted as a list of strings is. -/
def stringKeys (keys : List String) : List (Value Empty Empty) := keys.map .string

def sortedRecordIndices (keys : List String) : EvalM (List Nat) := do
  recordWorkspace span keys.length 8
  visitEach span keys.length
  if keys.length < 2 then return List.range keys.length
  else
    recordWorkspace span keys.length 8
    visitEach span keys.length
    lifted (ListOperations.mergePasses (stringKeys keys) span (keys.length + 1) 1 (List.range keys.length))

/-! ### Selecting -/

/-- The requested keys, when all are strings. -/
def requestedKeys : List (Value F C) → EvalM (List String)
  | [] => return []
  | requested :: more => do
    visit span
    match requested with
    | .string key => return key :: (← requestedKeys more)
    | _ => recordError operation span "requested keys must be Strings"

/-- A bounded, escaped excerpt of a key. -/
def recordKeyExcerpt (key : String) : String :=
  "\"" ++ String.ofList ((key.toList.take 24).flatMap JsonDecoder.escapeDefault) ++ (if 24 < key.toList.length then "…" else "") ++ "\""

/-- Equal keys are neighbours once sorted. -/
def checkRequests (keys : List String) : List Nat → EvalM Unit
  | first :: second :: more => do
    let repeated ← index keys second
    if (← recordCompare span (← index keys first) repeated) = .eq then
      recordError operation span ("repeated requested key " ++ recordKeyExcerpt repeated)
    else checkRequests keys (second :: more)
  | _ => return ()

/-- One step of the binary search between two bounds. -/
def searchTurn (keys : List String) (sorted : List Nat) (key : String) (bounds : Nat × Nat) :
    EvalM (Turn (Nat × Nat) (Option Nat)) := do
  let (low, high) := bounds
  if low < high then
    let middle := low + (high - low) / 2
    let entry ← index sorted middle
    match ← recordCompare span (← index keys entry) key with
    | .lt => return .again (middle + 1, high)
    | .gt => return .again (low, middle)
    | .eq => return .done (some entry)
  else return .done none

def searchSorted (keys : List String) (sorted : List Nat) (key : String) : EvalM (Option Nat) :=
  repeatFrom .unbounded (searchTurn span keys sorted key) (sorted.length + 1) (0, sorted.length)

def selectEntries (input : List (String × Value F C)) (sorted : List Nat) :
    List String → List (String × Value F C) → EvalM (List (String × Value F C))
  | [], output => return output
  | key :: keys, output => do
    visit span
    match ← searchSorted span (input.map Prod.fst) sorted key with
    | none => recordError operation span ("missing requested key " ++ recordKeyExcerpt key)
    | some found =>
      let (key, value) ← index input found
      selectEntries input sorted keys (← copyRecordEntry span output key value)

/-! ### Merging -/

def storeWinner (winners : List (Option Nat)) (position winner : Nat) : EvalM (List (Option Nat)) :=
  if position < winners.length then return winners.set position (some winner)
  else throw (.aborted (.panicked "index out of bounds"))

/-- Which entry stands at each position in the end, and how many do. -/
def selectWinners (keys : List String) (boundary : Nat) : List Nat → List (Option Nat) → Nat → EvalM (List (Option Nat) × Nat)
  | [], winners, retained => return (winners, retained)
  | [first], winners, retained => do
    visit span
    return (← storeWinner winners first first, retained + 1)
  | first :: second :: more, winners, retained => do
    visit span
    if (← recordCompare span (← index keys first) (← index keys second)) = .eq then
      if first < boundary ∧ boundary ≤ second then
        selectWinners keys boundary more (← storeWinner winners first second) (retained + 1)
      else throw (.aborted (.panicked "assertion failed: first < left.len() && second >= left.len()"))
    else selectWinners keys boundary (second :: more) (← storeWinner winners first first) (retained + 1)

def copyWinners (entries : List (String × Value F C)) :
    List (Option Nat) → List (String × Value F C) → EvalM (List (String × Value F C))
  | [], output => return output
  | winner :: winners, output => do
    visit span
    match winner with
    | none => copyWinners entries winners output
    | some winner =>
      let (key, value) ← index entries winner
      copyWinners entries winners (← copyRecordEntry span output key value)

def mergeRecords (left right : List (String × Value F C)) : EvalM (Value F C) := do
  let entries := left ++ right
  let keys := entries.map Prod.fst
  if 2 ^ 64 ≤ entries.length then throw (.aborted (.budgetExceeded span))
  else
    let sorted ← sortedRecordIndices span keys
    recordWorkspace span entries.length 8
    visitEach span entries.length
    let (winners, retained) ← selectWinners span keys left.length sorted (List.replicate entries.length none) 0
    entryWorkspace span retained
    return .record (← copyWinners span entries winners [])

/-! ### One key -/

def copyKeys : List String → List (Value F C) → EvalM (List (Value F C))
  | [], output => return output
  | key :: keys, output => do
    visit span
    retainRecordKey span key
    retainRecordItem span
    copyKeys keys (output ++ [.string key])

/-- The entries, with another value at a position. -/
def copyEntries (position : Option Nat) (value : Value F C) : Nat → List (String × Value F C) →
    List (String × Value F C) → EvalM (List (String × Value F C))
  | _, [], output => return output
  | place, (existing, old) :: entries, output => do
    let output ← copyRecordEntry span output existing (if position = some place then value else old)
    copyEntries position value (place + 1) entries output

def recordOperation (input : List (String × Value F C)) : RecordOperation F C → EvalM (Value F C)
  | .keys => do
    checkCancel span
    recordWorkspace span input.length (← read).sizeOfValue
    return .list (← copyKeys span (input.map Prod.fst) [])
  | .has key => do
    checkCancel span
    return .bool (← recordPosition span key (input.map Prod.fst)).isSome
  | .getOr key default => do
    checkCancel span
    let position ← recordPosition span key (input.map Prod.fst)
    retainRecordItem span
    retainCollectionBytes (← read).sizeOfValue span
    match position with
    | some found => return (← index input found).2
    | none => return default
  | .set key value => do
    checkCancel span
    let position ← recordPosition span key (input.map Prod.fst)
    let length := input.length + if position.isNone then 1 else 0
    if 2 ^ 64 ≤ length then throw (.aborted (.budgetExceeded span))
    else
      entryWorkspace span length
      let output ← copyEntries span position value 0 input []
      if position.isNone then return .record (← copyRecordEntry span output key value)
      else return .record output
  | .select requested => do
    checkCancel span
    let keys ← requestedKeys operation span requested
    if keys = [] then return .record []
    else
      checkRequests operation span keys (← sortedRecordIndices span keys)
      let sorted ← sortedRecordIndices span (input.map Prod.fst)
      entryWorkspace span keys.length
      return .record (← selectEntries operation span input sorted keys [])
  | .merge right => do
    checkCancel span
    mergeRecords span input right

end Operations

end Opaal.Runtime
