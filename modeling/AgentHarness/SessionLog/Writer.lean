/-
What the writer of a session puts into its file: first the header and the
user's line, later at most one terminal line. The ids are drawn, checked to
be valid and to differ; every line and the file have a greatest size.
-/
import AgentHarness.SessionLog.Projection

namespace AgentHarness.SessionLog

open Text Except Lines

/-! ## Where ids and times come from -/

/-- The ids and times that will be drawn, and what stays the same. A random
source and a clock never run out; a fixed one does. -/
structure Sources where
  ids : List String
  times : List UInt64
  workingDirectory : Option String
  harnessVersion : String
  deriving DecidableEq, Repr

namespace Sources

def nextId (s : Sources) : Option (String × Sources) :=
  match s.ids with
  | [] => none
  | id :: ids => if validId id then some (id, { s with ids }) else none

def now (s : Sources) : Option (UInt64 × Sources) :=
  match s.times with
  | [] => none
  | time :: times => some (time, { s with times })

theorem nextId_eq_some {s s' : Sources} {id : String} :
    s.nextId = some (id, s') ↔ s.ids = id :: s'.ids ∧ validId id = true ∧ s' = { s with ids := s'.ids } := by
  unfold nextId
  split
  · rename_i h
    simp [h]
  · rename_i x xs h
    simp only [Option.ite_none_right_eq_some, Option.some.injEq, Prod.mk.injEq, h, List.cons.injEq]
    constructor
    · intro h
      obtain ⟨hv, rfl, rfl⟩ := h
      exact ⟨⟨rfl, rfl⟩, hv, rfl⟩
    · intro h
      obtain ⟨⟨rfl, rfl⟩, hv, hs⟩ := h
      exact ⟨hv, rfl, hs.symm⟩

theorem now_eq_some {s s' : Sources} {time : UInt64} :
    s.now = some (time, s') ↔ s.times = time :: s'.times ∧ s' = { s with times := s'.times } := by
  unfold now
  split
  · rename_i h
    simp [h]
  · rename_i x xs h
    simp only [Option.some.injEq, Prod.mk.injEq, h, List.cons.injEq]
    constructor
    · intro h
      obtain ⟨rfl, rfl⟩ := h
      exact ⟨⟨rfl, rfl⟩, rfl⟩
    · intro h
      obtain ⟨⟨rfl, rfl⟩, hs⟩ := h
      exact ⟨rfl, hs.symm⟩

end Sources

/-! ## The first records -/

inductive CreateError where
  | storeUnavailable
  deriving DecidableEq, Repr

structure InitialRecords where
  sessionId : String
  operationId : String
  userEntryId : String
  header : Bytes
  user : Bytes
  deriving DecidableEq, Repr

def initialRecords (sources : Sources) (prompt : String) : Except CreateError (InitialRecords × Sources) := do
  let (sessionId, sources) ← okOr sources.nextId .storeUnavailable
  let (operationId, sources) ← okOr sources.nextId .storeUnavailable
  let (userEntryId, sources) ← okOr sources.nextId .storeUnavailable
  rejectIf ([sessionId, operationId, userEntryId].dedup.length != 3) .storeUnavailable
  let (createdAt, sources) ← okOr sources.now .storeUnavailable
  let (userTimestamp, sources) ← okOr sources.now .storeUnavailable
  let header := header sessionId createdAt sources.workingDirectory sources.harnessVersion
  let user := userEntry userEntryId userTimestamp operationId prompt
  let header ← okOr (serializeLine header) .storeUnavailable
  let user ← okOr (serializeLine user) .storeUnavailable
  rejectIf (header.length + user.length > maxSessionBytes) .storeUnavailable
  return ({ sessionId, operationId, userEntryId, header, user }, sources)

/-! ## The terminal record -/

inductive AppendError where
  | storeUnavailable
  deriving DecidableEq, Repr

/-- The writer of a session whose file has its first two lines. -/
structure SessionWriter where
  sources : Sources
  sessionId : String
  userEntryId : String
  operationId : String
  deriving DecidableEq, Repr

def InitialRecords.writer (initial : InitialRecords) (sources : Sources) : SessionWriter where
  sources
  sessionId := initial.sessionId
  userEntryId := initial.userEntryId
  operationId := initial.operationId

namespace SessionWriter

def terminalRecord (writer : SessionWriter) (build : String → UInt64 → Record) : Except AppendError Record := do
  let (entryId, sources) ← okOr writer.sources.nextId .storeUnavailable
  rejectIf (entryId == writer.sessionId || entryId == writer.userEntryId || entryId == writer.operationId)
    .storeUnavailable
  let (timestamp, _) ← okOr sources.now .storeUnavailable
  return build entryId timestamp

/-- The file with the record after what it holds. -/
def appendTerminal (file : Bytes) (record : Record) : Except AppendError Bytes := do
  let line ← okOr (serializeLine record) .storeUnavailable
  rejectIf (file.length + line.length > maxSessionBytes) .storeUnavailable
  return file ++ line

def assistantRecord (writer : SessionWriter) (text : String) : Except AppendError Record :=
  writer.terminalRecord fun entryId timestamp =>
    assistantEntry entryId writer.userEntryId timestamp writer.operationId text

def failureRecord (writer : SessionWriter) (failureCode : FailureCode) : Except AppendError Record :=
  writer.terminalRecord fun entryId timestamp =>
    failureEntry entryId writer.userEntryId timestamp writer.operationId failureCode

/-- The file after `append_assistant`. -/
def appendAssistant (writer : SessionWriter) (text : String) (file : Bytes) : Except AppendError Bytes := do
  appendTerminal file (← writer.assistantRecord text)

/-- The file after `append_failure`. -/
def appendFailure (writer : SessionWriter) (failureCode : FailureCode) (file : Bytes) : Except AppendError Bytes := do
  appendTerminal file (← writer.failureRecord failureCode)

end SessionWriter

end AgentHarness.SessionLog
