import Opaal.Runtime.Operation

/-!
# Lazy value streams

A value stream is pulled one item at a time from a source that may end, fail or be
cancelled.  A checked pull enforces the element type and the cardinality the stream
declares, the first terminal outcome is latched, and the owned resource is closed at
most once.

A closure without arguments is what it answers at its first, second, third call and
so on, so producers, cleanup actions and the polls of a cancellation token are
functions of the number of calls made before, and the stream counts its calls.
-/

namespace Opaal.Runtime

variable {F C : Type}

inductive CancelReason where
  | requested
  | timeout
deriving DecidableEq

/-- What the polls of a token answer, and the reason it reports when one trips. -/
structure CancellationToken where
  isCancelled : Nat → Bool
  reason : Nat → CancelReason

def CancellationToken.never : CancellationToken := ⟨fun _ => false, fun _ => .requested⟩

inductive StreamCardinality where
  | exact (items : Nat)
  | atMost (items : Nat)
  | unknown
deriving DecidableEq

/-- The number of items a producer may not exceed. -/
def StreamCardinality.limit : StreamCardinality → Option Nat
  | .exact limit | .atMost limit => some limit
  | .unknown => none

structure StreamSchema where
  elementType : ValueType
  cardinality : StreamCardinality
  owner : UInt64

inductive StreamContractViolation where
  | elementType (expected : ValueType) (actual : String)
  | cardinalityExceeded (declared : StreamCardinality) (observed : Nat)
  | cardinalityShortfall (expected observed : Nat)

structure StreamCleanupFailure where
  message : String
deriving DecidableEq

/-- The outcome of pulling one item. -/
inductive StreamPull (F C : Type) where
  | item (value : Value F C)
  | ended
  | failed (error : F)
  | cancelled (reason : CancelReason)

/-- The outcome of a pull that checks the schema. -/
inductive CheckedStreamPull (F C : Type) where
  | item (value : Value F C)
  | ended
  | failed (error : F)
  | cancelled (reason : CancelReason)
  | contractViolation (violation : StreamContractViolation)

def StreamPull.isItem : StreamPull F C → Bool
  | .item _ => true
  | _ => false

def CheckedStreamPull.isItem : CheckedStreamPull F C → Bool
  | .item _ => true
  | _ => false

/-- The pull source behind a stream. -/
inductive Source (F C : Type) where
  | once (slot : Option (Value F C))
  | values (items : List (Value F C)) (cursor : Nat)
  | queue (items : List (Value F C))
  | producer (answers : Nat → Option (Except F (Value F C))) (calls : Nat)
  | puller (answers : Nat → StreamPull F C) (calls : Nat)

def Source.advance : Source F C → StreamPull F C × Source F C
  | .once (some value) => (.item value, .once none)
  | .once none => (.ended, .once none)
  | .values items cursor =>
    match items[cursor]? with
    | some value => (.item value, .values items (cursor + 1))
    | none => (.ended, .values items cursor)
  | .queue (value :: items) => (.item value, .queue items)
  | .queue [] => (.ended, .queue [])
  | .producer answers calls =>
    match answers calls with
    | some (.ok value) => (.item value, .producer answers (calls + 1))
    | some (.error error) => (.failed error, .producer answers (calls + 1))
    | none => (.ended, .producer answers (calls + 1))
  | .puller answers calls => (answers calls, .puller answers (calls + 1))

structure ValueStream (F C : Type) where
  source : Source F C
  cancel : CancellationToken
  polls : Nat
  schema : StreamSchema
  checkedItems : Nat
  terminal : Bool
  cleanup : Option (Nat → Except StreamCleanupFailure Unit)
  cleanups : Nat
  closed : Bool

namespace ValueStream

/-! ## Construction -/

def withSource (owner : UInt64) (source : Source F C) (cardinality : StreamCardinality) :
    ValueStream F C where
  source := source
  cancel := .never
  polls := 0
  schema := ⟨.any, cardinality, owner⟩
  checkedItems := 0
  terminal := false
  cleanup := none
  cleanups := 0
  closed := false

def once (owner : UInt64) (value : Value F C) : ValueStream F C :=
  withSource owner (.once (some value)) (.exact 1)

def fromValues (owner : UInt64) (values : List (Value F C)) : ValueStream F C :=
  withSource owner (.values values 0) (.exact values.length)

def fromQueue (owner : UInt64) (items : List (Value F C)) : ValueStream F C :=
  withSource owner (.queue items) (.exact items.length)

def fromPullFn (owner : UInt64) (producer : Nat → StreamPull F C) : ValueStream F C :=
  withSource owner (.puller producer 0) .unknown

def withContract (stream : ValueStream F C) (elementType : ValueType)
    (cardinality : StreamCardinality) : ValueStream F C :=
  { stream with schema := { stream.schema with elementType := elementType, cardinality := cardinality } }

def withCleanup (stream : ValueStream F C) (cleanup : Nat → Except StreamCleanupFailure Unit) :
    ValueStream F C :=
  { stream with cleanup := some cleanup }

def withCancellation (stream : ValueStream F C) (token : CancellationToken) :
    ValueStream F C :=
  { stream with cancel := token }

/-! ## Pulling and closing -/

/-- Pulls the next item; the token is polled first, and a terminal stream stays ended. -/
def pull (stream : ValueStream F C) : StreamPull F C × ValueStream F C :=
  if stream.terminal then
    (.ended, stream)
  else
    let polled := { stream with polls := stream.polls + 1 }
    if stream.cancel.isCancelled stream.polls then
      (.cancelled (stream.cancel.reason stream.polls), { polled with terminal := true })
    else
      let (pulled, source) := stream.source.advance
      (pulled, { polled with source := source, terminal := !pulled.isItem })

/-- Pulls one item and enforces the declared element type and cardinality.  A stream that
is already terminal is not checked again. -/
def pullChecked (stream : ValueStream F C) :
    CheckedStreamPull F C × ValueStream F C :=
  if stream.terminal then
    (.ended, stream)
  else
    match stream.pull with
    | (.item value, stream) =>
      let observed := stream.checkedItems + 1
      if stream.schema.cardinality.limit.any (· < observed) then
        (.contractViolation (.cardinalityExceeded stream.schema.cardinality observed),
          { stream with terminal := true })
      else if !stream.schema.elementType.accepts value then
        (.contractViolation (.elementType stream.schema.elementType value.familyName),
          { stream with terminal := true })
      else
        (.item value, { stream with checkedItems := observed })
    | (.ended, stream) =>
      match stream.schema.cardinality with
      | .exact expected =>
        if stream.checkedItems < expected then
          (.contractViolation (.cardinalityShortfall expected stream.checkedItems), stream)
        else
          (.ended, stream)
      | .atMost _ | .unknown => (.ended, stream)
    | (.failed error, stream) => (.failed error, stream)
    | (.cancelled reason, stream) => (.cancelled reason, stream)

/-- Runs the cleanup of the owned resource unless the stream was closed before.  Dropping
a stream closes it. -/
def close (stream : ValueStream F C) :
    Except StreamCleanupFailure Unit × ValueStream F C :=
  if stream.closed then
    (.ok (), stream)
  else
    match stream.cleanup with
    | some cleanup => (cleanup stream.cleanups, { stream with closed := true, cleanups := stream.cleanups + 1 })
    | none => (.ok (), { stream with closed := true })

/-! ## Whole runs -/

/-- What a consumer can do with a stream. -/
inductive Call where
  | pull
  | pullChecked
  | close
deriving DecidableEq

/-- What a consumer sees of one call. -/
inductive Event (F C : Type) where
  | pulled (outcome : StreamPull F C)
  | checked (outcome : CheckedStreamPull F C)
  | closed (outcome : Except StreamCleanupFailure Unit)

def perform (stream : ValueStream F C) : Call → Event F C × ValueStream F C
  | .pull => (.pulled stream.pull.1, stream.pull.2)
  | .pullChecked => (.checked stream.pullChecked.1, stream.pullChecked.2)
  | .close => (.closed stream.close.1, stream.close.2)

/-- The events of a sequence of calls and the stream it leaves. -/
def run (stream : ValueStream F C) :
    List Call → List (Event F C) × ValueStream F C
  | [] => ([], stream)
  | call :: calls =>
    let (event, next) := stream.perform call
    let (events, last) := run next calls
    (event :: events, last)

/-- The items handed out by checked pulls. -/
def Event.isDelivery : Event F C → Bool
  | .checked outcome => outcome.isItem
  | _ => false

/-- An end, a failure, a cancellation or a contract violation. -/
def Event.isTerminal : Event F C → Bool
  | .pulled outcome => !outcome.isItem
  | .checked outcome => !outcome.isItem
  | .closed _ => false

/-- A pull that reports the end, or a call that is not a pull. -/
def Event.isEnd : Event F C → Bool
  | .pulled .ended | .checked .ended | .closed _ => true
  | _ => false

def delivered (events : List (Event F C)) : Nat := events.countP Event.isDelivery

/-- What holds between calls: no more items were checked than declared, and the cleanup
ran at most once, and only if the stream was closed. -/
structure Within (stream : ValueStream F C) : Prop where
  bounded : ∀ limit, stream.schema.cardinality.limit = some limit → stream.checkedItems ≤ limit
  cleaned : stream.cleanups ≤ if stream.closed then 1 else 0

variable {stream : ValueStream F C}

/-- The stream after a live pull, as a function of what the pull did to the source. -/
def advanced (stream : ValueStream F C) (source : Source F C) (terminal : Bool) :
    ValueStream F C :=
  { stream with source := source, polls := stream.polls + 1, terminal := terminal }

/-- What one call changes, and what it leaves alone. -/
structure Step (stream : ValueStream F C) (event : Event F C)
    (next : ValueStream F C) : Prop where
  schema : next.schema = stream.schema
  counted : next.checkedItems = stream.checkedItems + if event.isDelivery then 1 else 0
  within : stream.Within → next.Within
  /-- The latch is set by the first terminal outcome and never cleared. -/
  latched : next.terminal = (stream.terminal || event.isTerminal)
  /-- A latched stream is not advanced and only ever ends. -/
  stays : stream.terminal = true → next.source = stream.source ∧ event.isEnd = true

/-- A stream nobody has pulled from, with any source, token, schema and cleanup. -/
def opened (source : Source F C) (cancel : CancellationToken) (schema : StreamSchema)
    (cleanup : Option (Nat → Except StreamCleanupFailure Unit)) : ValueStream F C :=
  ⟨source, cancel, 0, schema, 0, false, cleanup, 0, false⟩

end ValueStream

/-! ## The stream overload of an operation -/

section Execution

variable {stream : ValueStream F C}

variable (operation : OperationDescriptor) (itemLimit : Nat)

end Execution

end Opaal.Runtime
