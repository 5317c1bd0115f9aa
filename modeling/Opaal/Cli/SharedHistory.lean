import Opaal.Cli.History
import Opaal.Machine.Stateful

/-!
# One history file, many sessions

Sessions open the file, record entries and synchronise in any order.  Every merge drops
repetitions and old entries again, and what the file holds is still what one pass over all
accepted entries keeps.
-/

namespace Opaal.Cli

open Opaal.Machine Opaal.Order Opaal.Text List

theorem merge_eq_recent (capacity : Nat) (entries : List (List Char)) : merge capacity entries = recent capacity entries := by
  unfold merge recent
  rw [foldl_push]
  rfl

/-! ## One synchronisation -/

section Sync

variable {history : EditorHistory} {content : List UInt8} {io : HistoryIo} {error : IoError}

/-- What a history and the file are after a merge. -/
def synced (history : EditorHistory) (found : List (List Char)) : EditorHistory × List UInt8 :=
  ({ history with entries := recent history.capacity (found ++ history.pending), pending := [] },
    writeEntries (recent history.capacity (found ++ history.pending)))

variable {path : Runtime.NativePath}

theorem sync_calm {found : List (List Char)} (persistent : history.file = some path) (reads : readEntries content = .ok found) :
    EditorHistory.sync .calm (history, content) = .ok () (synced history found) := by
  have all : readAll .calm content = .ok found := reads
  obtain ⟨_, _, _, _⟩ := history
  cases persistent
  rw [synced, ← merge_eq_recent, EditorHistory.sync, get_bind]
  simp only [all]
  rfl

end Sync

/-! ## One record -/

section Records

variable {history : EditorHistory} {content : List UInt8} {source : List Char}

/-- An entry is refused for being empty or for repeating the end of what the session saw last. -/
theorem record_refused (refused : history.capacity = 0 ∨ source = [] ∨ history.entries.getLast? = some source) (io : HistoryIo) :
    EditorHistory.record io source (history, content) = .ok false (history, content) := by
  unfold EditorHistory.record
  rw [get_bind]
  simp only [if_pos refused]
  rfl

theorem record_accepted {path : Runtime.NativePath} {found : List (List Char)} (persistent : history.file = some path)
    (reads : readEntries content = .ok found)
    (taken : ¬(history.capacity = 0 ∨ source = [] ∨ history.entries.getLast? = some source)) :
    EditorHistory.record .calm source (history, content) =
      .ok true (synced { history with pending := history.pending ++ [source] } found) := by
  have ran := sync_calm (show ({ history with pending := history.pending ++ [source] } : EditorHistory).file = some path from
    persistent) reads
  unfold EditorHistory.record
  rw [get_bind]
  simp only [if_neg taken]
  rw [set_bind, bind_of_ok (adaptExcept_of_ok ran)]
  rfl

end Records

/-! ## Sessions on one file -/

section Runs

variable {ι : Type}

/-- The file, and the histories of the sessions that were started. -/
structure Sessions (ι : Type) where
  content : List UInt8
  histories : ι → Option EditorHistory

inductive Call (ι : Type) where
  | start (session : ι)
  | record (session : ι) (source : List Char)
  | sync (session : ι)

namespace Sessions

variable [DecidableEq ι]

def keep (state : Sessions ι) (session : ι) (after : EditorHistory × List UInt8) : Sessions ι :=
  ⟨after.2, Function.update state.histories session (some after.1)⟩

/-- A call under the lock of the file, while all I/O succeeds.  A session can only record what it
was started for. -/
def perform (path : Runtime.NativePath) (state : Sessions ι) : Call ι → Sessions ι
  | .start session =>
    match EditorHistory.openHistory .calm "history" state.content (.persistent path) with
    | .ok history content => state.keep session (history, content)
    | .error _ content => { state with content }
  | .record session source =>
    match state.histories session with
    | none => state
    | some history =>
      match EditorHistory.record .calm source (history, state.content) with
      | .ok _ after | .error _ after => state.keep session after
  | .sync session =>
    match state.histories session with
    | none => state
    | some history =>
      match EditorHistory.sync .calm (history, state.content) with
      | .ok _ after | .error _ after => state.keep session after

/-- The entry a call adds. -/
def takes (state : Sessions ι) : Call ι → List (List Char)
  | .record session source =>
    match state.histories session with
    | none => []
    | some history =>
      match EditorHistory.record .calm source (history, state.content) with
      | .ok true _ => [source]
      | _ => []
  | _ => []

def run (path : Runtime.NativePath) (state : Sessions ι) (calls : List (Call ι)) : Sessions ι :=
  calls.foldl (perform path) state

/-- The accepted entries of a run, in the order of the calls. -/
def accepted (path : Runtime.NativePath) (state : Sessions ι) : List (Call ι) → List (List Char)
  | [] => []
  | call :: calls => state.takes call ++ accepted path (state.perform path call) calls

end Sessions

/-- What a run keeps. -/
structure Kept (path : Runtime.NativePath) (entries : List (List Char)) (state : Sessions ι) : Prop where
  reads : ∃ found, readEntries state.content = .ok found ∧
    recent defaultHistoryCapacity found = recent defaultHistoryCapacity entries
  written : ∀ session history, state.histories session = some history →
    state.content = writeEntries (recent defaultHistoryCapacity entries)
  sessions : ∀ session history, state.histories session = some history →
    history.capacity = defaultHistoryCapacity ∧ history.file = some path ∧ history.pending = [] ∧
      ∃ seen, seen <+: entries ∧ history.entries = recent defaultHistoryCapacity seen

/-- What a session starts from before it has read the file. -/
def freshHistory (path : Runtime.NativePath) : EditorHistory := ⟨[], [], defaultHistoryCapacity, some path⟩

variable {path : Runtime.NativePath} {session : ι} {state : Sessions ι} {history : EditorHistory}

theorem capacity_pos : 0 < defaultHistoryCapacity := by
  unfold defaultHistoryCapacity
  omega

variable [DecidableEq ι]

theorem keep_self (state : Sessions ι) (session : ι) (after : EditorHistory × List UInt8) :
    (state.keep session after).histories session = some after.1 := Function.update_self _ _ _

theorem keep_of_ne (state : Sessions ι) {other : ι} (different : other ≠ session) (after : EditorHistory × List UInt8) : (state.keep session after).histories other = state.histories other :=
  Function.update_of_ne different _ _

theorem keep_same (started : state.histories session = some history) : state.keep session (history, state.content) = state := by
  unfold Sessions.keep
  rw [← started, Function.update_eq_self]

theorem perform_start {found : List (List Char)} (reads : readEntries state.content = .ok found) :
    state.perform path (.start session) = state.keep session (synced (freshHistory path) found) := by
  have ran := sync_calm (Eq.refl (freshHistory path).file) reads
  have opened : EditorHistory.openHistory .calm "history" state.content (.persistent path) =
      .ok (synced (freshHistory path) found).1 (synced (freshHistory path) found).2 := by
    unfold EditorHistory.openHistory
    simp only [HistoryIo.calm]
    rw [show EditorHistory.sync ⟨.ok (), .ok (), none, none⟩ (⟨[], [], defaultHistoryCapacity, some path⟩, _) = _ from ran]
  simp [Sessions.perform, opened]

namespace Kept

variable {path : Runtime.NativePath} {entries : List (List Char)} {state : Sessions ι}

/-- A session that merges its pending entries. -/
theorem synced (kept : Kept path entries state) (session : ι) {history : EditorHistory} {found : List (List Char)}
    (capacity : history.capacity = defaultHistoryCapacity) (persistent : history.file = some path)
    (reads : readEntries state.content = .ok found) :
    Kept path (entries ++ history.pending) (state.keep session (Cli.synced history found)) := by
  have merged : recent history.capacity (found ++ history.pending) =
      recent defaultHistoryCapacity (entries ++ history.pending) := by
    obtain ⟨_, same, equal⟩ := kept.reads
    rw [reads] at same
    cases same
    rw [capacity, ← recent_append capacity_pos, equal, recent_append capacity_pos]
  have content : (state.keep session (Cli.synced history found)).content =
      writeEntries (recent defaultHistoryCapacity (entries ++ history.pending)) := by
    rw [← merged]
    rfl
  refine ⟨⟨recent defaultHistoryCapacity (entries ++ history.pending), ?_, recent_recent capacity_pos _⟩,
    fun _ _ _ => content, ?_⟩
  · rw [content, readEntries_writeEntries]
  intro other holds started
  by_cases same : other = session
  · subst same
    rw [keep_self] at started
    cases started
    exact ⟨capacity, persistent, rfl, _, prefix_rfl, merged⟩
  · rw [keep_of_ne _ same] at started
    obtain ⟨bounded, filed, nothing, seen, before, view⟩ := kept.sessions other holds started
    exact ⟨bounded, filed, nothing, seen, before.trans (prefix_append _ _), view⟩

theorem start (kept : Kept path entries state) (session : ι) : Kept path entries (state.perform path (.start session)) := by
  obtain ⟨_, reads, _⟩ := kept.reads
  have merged := kept.synced session (Eq.refl (freshHistory path).capacity) rfl reads
  rw [show (freshHistory path).pending = [] from rfl, append_nil] at merged
  rw [perform_start reads]
  exact merged

theorem perform (kept : Kept path entries state) (call : Call ι) :
    Kept path (entries ++ state.takes call) (state.perform path call) := by
  obtain ⟨_, reads, _⟩ := kept.reads
  cases call with
  | start session =>
    simp only [Sessions.takes, append_nil]
    exact kept.start session
  | record session source =>
    cases started : state.histories session with
    | none =>
      simp only [Sessions.takes, Sessions.perform, started]
      rw [append_nil]
      exact kept
    | some history =>
      obtain ⟨capacity, persistent, nothing, _⟩ := kept.sessions session history started
      by_cases refused : history.capacity = 0 ∨ source = [] ∨ history.entries.getLast? = some source
      · simp only [Sessions.takes, Sessions.perform, started, record_refused refused]
        rw [append_nil, keep_same started]
        exact kept
      · simp only [Sessions.takes, Sessions.perform, started, record_accepted persistent reads refused]
        have merged := kept.synced session
          (show ({ history with pending := history.pending ++ [source] } : EditorHistory).capacity = _ from capacity)
          persistent reads
        simp only [nothing, nil_append] at merged ⊢
        exact merged
  | sync session =>
    cases started : state.histories session with
    | none =>
      simp only [Sessions.takes, Sessions.perform, started]
      rw [append_nil]
      exact kept
    | some history =>
      obtain ⟨capacity, persistent, nothing, _⟩ := kept.sessions session history started
      have merged := kept.synced session capacity persistent reads
      simp only [Sessions.takes, Sessions.perform, started, sync_calm persistent reads]
      rw [nothing] at merged
      exact merged

end Kept

/-- A record call of a session, when `log` holds all entries so far: the session has seen the file
as it was at some earlier time; a taken entry is merged into the file as it is now, and nothing
happens for one that is empty or ends what the session has seen. -/
structure Records (log : List (List Char)) (history : EditorHistory) (content : List UInt8) (source : List Char) : Prop where
  view : ∃ seen, seen <+: log ∧ history.entries = recent defaultHistoryCapacity seen
  file : readEntries content = .ok (recent defaultHistoryCapacity log)
  answer : ((source = [] ∨ history.entries.getLast? = some source) ∧
      EditorHistory.record .calm source (history, content) = .ok false (history, content)) ∨
    ∃ after, ¬(source = [] ∨ history.entries.getLast? = some source) ∧
      EditorHistory.record .calm source (history, content) = .ok true after ∧
      after.1.entries = recent defaultHistoryCapacity (log ++ [source]) ∧ after.1.pending = [] ∧
      readEntries after.2 = .ok (recent defaultHistoryCapacity (log ++ [source]))

omit [DecidableEq ι] in
theorem Kept.records {log : List (List Char)} (kept : Kept path log state) (started : state.histories session = some history)
    (source : List Char) :
    Records log history state.content source where
  view := (kept.sessions session history started).2.2.2
  file := by rw [kept.written session history started, readEntries_writeEntries]
  answer := by
    obtain ⟨capacity, persistent, nothing, _⟩ := kept.sessions session history started
    obtain ⟨found, reads, same⟩ := kept.reads
    by_cases refused : history.capacity = 0 ∨ source = [] ∨ history.entries.getLast? = some source
    · refine .inl ⟨refused.resolve_left ?_, record_refused refused _⟩
      rw [capacity]
      exact Nat.ne_of_gt capacity_pos
    · have merged : recent history.capacity (found ++ (history.pending ++ [source])) =
          recent defaultHistoryCapacity (log ++ [source]) := by
        rw [nothing, nil_append, capacity, ← recent_append capacity_pos, same, recent_append capacity_pos]
      refine .inr ⟨_, fun seen => refused (.inr seen), record_accepted persistent reads refused, merged, rfl, ?_⟩
      rw [Cli.synced, readEntries_writeEntries]
      exact congrArg Except.ok merged

end Runs

/-! ## Two sessions -/

end Opaal.Cli
