/-
The session log that keeps its files in memory. A file is locked while its
session has a writer: starting sets the flag, and the writer clears it where
it ends the session or is dropped. It does not where an entry would make the
file too long.
-/
import AgentHarness.SessionLog.Drawing

namespace AgentHarness.SessionLog

open Text Except

structure MemoryFile where
  bytes : Bytes
  locked : Bool
  deriving DecidableEq, Repr

structure MemoryStore where
  files : Std.HashMap String MemoryFile

/-- A file is not made too long. -/
theorem length_appended_le {bytes : Bytes} (h : bytes.length ≤ maxSessionBytes) (record : Except AppendError Record) :
    (appended bytes (record >>= SessionWriter.appendTerminal bytes)).length ≤ maxSessionBytes := by
  cases hx : record >>= SessionWriter.appendTerminal bytes with
  | error e => exact h
  | ok bytes' =>
    obtain ⟨r, -, hx⟩ := bind_ok_iff.mp hx
    obtain ⟨line, -, hx⟩ := bind_ok_iff.mp hx
    obtain ⟨_, hshort, hx⟩ := bind_ok_iff.mp hx
    cases hx
    simpa [appended, Except.toOption] using hshort

namespace MemoryStore

def empty : MemoryStore where
  files := ∅

/-! ## Starting -/

/-- `start_memory`. -/
def startMemoryWith (prompt : String) : (retries : Nat) → Sources → MemoryStore →
    Except CreateError SessionWriter × Sources × MemoryStore
  | 0, sources, store => (.error .storeUnavailable, sources, store)
  | retries + 1, sources, store =>
    match drawInitial prompt sources with
    | (.error e, sources) => (.error e, sources, store)
    | (.ok initial, sources) =>
      if store.files.contains initial.sessionId then startMemoryWith prompt retries sources store
      else (.ok (initial.writer sources), sources,
        { files := store.files.insert initial.sessionId { bytes := initial.header ++ initial.user, locked := true } })

def startMemory (prompt : String) (sources : Sources) (store : MemoryStore) :
    Except CreateError SessionWriter × Sources × MemoryStore :=
  startMemoryWith prompt createRetries sources store

/-- **The first ids that are drawn make the session**, where they are new. -/
theorem startMemory_sources {s : Session} (hfit : s.LinesFit none) (hsize : (s.bytes none).length ≤ maxSessionBytes)
    {store : MemoryStore} (hnew : store.files.contains s.sessionId = false) (ids : List String) (times : List UInt64) :
    store.startMemory s.prompt (s.sources ids times) =
      (.ok (s.writer ids times),
        { ids, times, workingDirectory := s.workingDirectory, harnessVersion := s.harnessVersion },
        { files := store.files.insert s.sessionId { bytes := s.bytes none, locked := true } }) := by
  have hinitial : initialRecords (s.sources ids times) s.prompt = .ok (s.initial, _) :=
    s.initialRecords_sources.mpr ⟨hfit, hsize, rfl, rfl⟩
  have hnew' : store.files.contains s.initial.sessionId = false := hnew
  rw [startMemory, createRetries, startMemoryWith, drawInitial_ok_iff.mpr hinitial]
  simp only [hnew', Bool.false_eq_true, if_false, s.initial_bytes]
  rfl

/-! ## The writer -/

/-- What is left of a writer that is dropped with its backend. -/
def drop (store : MemoryStore) (writer : SessionWriter) : MemoryStore where
  files := store.files.modify writer.sessionId fun file => { file with locked := false }

/-- `append_terminal`: the backend is taken before the file is looked at, so
that a writer whose entry does not fit is dropped without it. -/
def appendTerminal (store : MemoryStore) (writer : SessionWriter) (record : Record) :
    Except AppendError Unit × MemoryStore :=
  match serializeLine record with
  | none => (.error .storeUnavailable, store.drop writer)
  | some line =>
    match store.files[writer.sessionId]? with
    | none => (.error .storeUnavailable, store)
    | some file =>
      if file.bytes.length + line.length > maxSessionBytes then (.error .storeUnavailable, store)
      else (.ok (), { files := store.files.insert writer.sessionId { bytes := file.bytes ++ line, locked := false } })

/-- Append the record, if there is one; the writer is gone in any case. -/
def finish (store : MemoryStore) (writer : SessionWriter) (record : Except AppendError Record) :
    Except AppendError Unit × MemoryStore :=
  match record with
  | .error e => (.error e, store.drop writer)
  | .ok record => store.appendTerminal writer record

section
variable {store : MemoryStore} {writer : SessionWriter} {bytes : Bytes} {locked : Bool}

theorem drop_files (h : store.files[writer.sessionId]? = some { bytes, locked }) (id : String) :
    (store.drop writer).files[id]? =
      if id = writer.sessionId then some { bytes, locked := false } else store.files[id]? := by
  rw [drop, Std.HashMap.getElem?_modify, h]
  by_cases hid : id = writer.sessionId
  · simp [hid]
  · simp [hid, Ne.symm hid]

/-- **A writer leaves its file unlocked**, and longer if nothing is refused,
unless it is the size of the file that is. -/
theorem finish_files (h : store.files[writer.sessionId]? = some { bytes, locked }) {record : Except AppendError Record}
    (hfits : ∀ r line, record = .ok r → serializeLine r = some line → bytes.length + line.length ≤ maxSessionBytes) :
    (store.finish writer record).1 = (record >>= SessionWriter.appendTerminal bytes).map (fun _ => ()) ∧
      ∀ id, (store.finish writer record).2.files[id]? = if id = writer.sessionId then
        some { bytes := appended bytes (record >>= SessionWriter.appendTerminal bytes), locked := false }
      else store.files[id]? := by
  cases record with
  | error e => exact ⟨rfl, drop_files h⟩
  | ok r =>
    rw [finish, appendTerminal, ok_bind, SessionWriter.appendTerminal]
    cases hline : serializeLine r with
    | none => exact ⟨rfl, drop_files h⟩
    | some line =>
      have hshort : ¬bytes.length + line.length > maxSessionBytes := Nat.not_lt.mpr (hfits r line rfl hline)
      simp only [h, hshort, if_false, okOr_some, ok_bind, decide_false, rejectIf_false]
      refine ⟨rfl, fun id => ?_⟩
      rw [Std.HashMap.getElem?_insert]
      by_cases hid : id = writer.sessionId
      · simp only [hid, beq_self_eq_true, if_true]
        rfl
      · simp [hid, Ne.symm hid]

/-- A writer whose entry makes its file too long leaves everything as it is. -/
theorem finish_exceeds (h : store.files[writer.sessionId]? = some { bytes, locked }) {record : Record} {line : Bytes}
    (hline : serializeLine record = some line) (hlong : maxSessionBytes < bytes.length + line.length) :
    store.finish writer (.ok record) = (.error .storeUnavailable, store) := by
  simp [finish, appendTerminal, hline, h, hlong]

end

def rollback (store : MemoryStore) (writer : SessionWriter) : Except FileWriter.RollbackError Unit × MemoryStore :=
  ((okOr store.files[writer.sessionId]? .storeUnavailable).map fun _ => (),
    { files := store.files.erase writer.sessionId })

/-! ## Reading -/

/-- `show_memory`. -/
def showMemory (store : MemoryStore) (sessionId : String) : Except ShowError ShowResult := do
  let file ← okOr store.files[sessionId]? .missing
  rejectIf file.locked .busy
  (project file.bytes sessionId).mapError mapProjectionError

/-- `SessionLog::show`. -/
def showSession (store : MemoryStore) (sessionId : String) : Except ShowError ShowResult :=
  if !validId sessionId then .error .invalidSessionId else store.showMemory sessionId

/-- What `list_memory` makes of one session, and the budget left. -/
def inspect (store : MemoryStore) (sessionId : String) (budget : ListReadBudget) :
    Except FileInspectionError ShowResult × ListReadBudget :=
  match store.files[sessionId]? with
  | none => (.error (.shown .missing), budget)
  | some file =>
    if file.locked then (.error (.shown .busy), budget)
    else if file.bytes.length > maxSessionBytes then (.error (.shown .corrupt), budget)
    else match budget.charge file.bytes.length with
      | .error e => (.error e, budget)
      | .ok budget => ((project file.bytes sessionId).mapError fun e => .shown (mapProjectionError e), budget)

def summarize (store : MemoryStore) : List String → ListReadBudget → Except ListError (List SessionSummary)
  | [], _ => return []
  | sessionId :: candidates, budget =>
    let (result, budget) := store.inspect sessionId budget
    match result with
    | .ok shown => do return shown.intoSummary :: (← store.summarize candidates budget)
    | .error .inventoryTooLarge => .error .inventoryTooLarge
    | .error (.shown e) => do return listedError sessionId e ++ (← store.summarize candidates budget)

/-- `list_memory`, with the keys as the map has them. -/
def listMemory (store : MemoryStore) (keys : List String) (limits : ListLimits) : Except ListError (List SessionSummary) := do
  let candidates ← collectCandidateIds (keys.map fun sessionId => .ok (fileName sessionId)) limits
  let summaries ← store.summarize candidates { used := 0, limit := limits.readBytes }
  return summaries.mergeSort summaryLe

end MemoryStore

end AgentHarness.SessionLog
