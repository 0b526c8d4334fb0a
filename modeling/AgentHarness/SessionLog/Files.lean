/-
The session log on the file system: starting a session, ending it, and
showing and listing what is there. Each program is the code's sequence of
calls, its early exits and the files it drops.
-/
import AgentHarness.SessionLog.FileSystem
import AgentHarness.SessionLog.Writer

namespace AgentHarness.SessionLog

open Text Except Interact

def createRetries : Nat := 8

/-! ## Directories and files -/

/-- A call whose errors are all the same. -/
def attempt {α : Type} (x : Except IoError α) : FsCall Unit α := exit (x.mapError fun _ => ())

/-- Make the directory when there is nothing at its path. -/
def createMissingDirectory (d : Directory) : FsCall Unit Unit := do
  match ← ask (.symlinkMetadata (.directory d)) with
  | .ok m => exit (rejectIf (m.kind != .directory) ())
  | .error .notFound => attempt (← ask (.createDirAll d))
  | .error _ => exit (.error ())

def ensurePrivateDirectory (d : Directory) : FsCall Unit Unit := do
  createMissingDirectory d
  let m ← attempt (← ask (.symlinkMetadata (.directory d)))
  exit (rejectIf (m.kind != .directory) ())
  attempt (← ask (.setPermissions (.directory d) 0o700))

/-- The file that is open is the one at the path, and has no other name. -/
def identityMatches (file : Nat) (id : String) : FsProgram Bool := do
  match ← request (.metadata file) with
  | .error _ => return false
  | .ok handle =>
    match ← request (.symlinkMetadata (.session id)) with
    | .error _ => return false
    | .ok path =>
      return path.kind == .file && handle.kind == .file && handle.ino == path.ino && handle.nlink == 1 &&
        path.nlink == 1

def privateFilePermissions (file : Nat) : FsProgram Bool := do
  match ← request (.metadata file) with
  | .error _ => return false
  | .ok m => return isPrivate m.mode

def rollbackCreatedFile (file : Nat) (id : String) : FsProgram Unit := do
  let same ← identityMatches file id
  let _ ← request (.close file)
  if same then
    let _ ← request (.removeFile id)

/-- A new file is only used with its permissions set and under its path. -/
def safeCreatedFile (file : Nat) (id : String) : FsProgram Bool := do
  match ← request (.setPermissions (.session id) 0o600) with
  | .error _ => return false
  | .ok _ => if ← identityMatches file id then privateFilePermissions file else return false

def createPrivateFile (id : String) : FsCall IoError Nat := do
  let file ← exit (← ask (.createNew id 0o600))
  if ← ExceptT.lift (safeCreatedFile file id) then return file
  else
    ExceptT.lift (rollbackCreatedFile file id)
    exit (.error .other)

/-! ## The writer -/

/-- The writer of a session and the file it has open. -/
structure FileWriter where
  writer : SessionWriter
  file : Nat

/-- Lock the new file and write the first records. -/
def publish (file : Nat) (initial : InitialRecords) : FsCall Unit Unit := do
  attempt (← ask (.lock file))
  attempt (← ask (.writeAll file initial.header))
  attempt (← ask (.writeAll file initial.user))
  attempt (← ask (.syncAll file))
  attempt (← ask (.syncDirectory .sessions))

/-- Try new ids until one is not in use. -/
def startFileWith (prompt : String) : (retries : Nat) → Sources → FsCall CreateError FileWriter
  | 0, _ => exit (.error .storeUnavailable)
  | retries + 1, sources => do
    let (initial, sources) ← exit (initialRecords sources prompt)
    match ← ExceptT.lift (createPrivateFile initial.sessionId).run with
    | .error .alreadyExists => startFileWith prompt retries sources
    | .error _ => exit (.error .storeUnavailable)
    | .ok file =>
      match ← ExceptT.lift (publish file initial).run with
      | .ok _ => return { writer := initial.writer sources, file }
      | .error _ =>
        ExceptT.lift (rollbackCreatedFile file initial.sessionId)
        exit (.error .storeUnavailable)

def startFile (sources : Sources) (prompt : String) : FsCall CreateError FileWriter := do
  exit ((← ExceptT.lift (ensurePrivateDirectory .application).run).mapError fun _ => .storeUnavailable)
  exit ((← ExceptT.lift (ensurePrivateDirectory .sessions).run).mapError fun _ => .storeUnavailable)
  startFileWith prompt createRetries sources

namespace FileWriter

def appendTerminal (w : FileWriter) (record : Record) : FsCall AppendError Unit := do
  let line ← exit (okOr (serializeLine record) .storeUnavailable)
  let same ← ExceptT.lift (identityMatches w.file w.writer.sessionId)
  exit (rejectIf (!same) .storeUnavailable)
  let m ← exit ((← ask (.metadata w.file)).mapError fun _ => .storeUnavailable)
  exit (rejectIf (m.len + line.length > maxSessionBytes) .storeUnavailable)
  exit ((← ask (.writeAll w.file line)).mapError fun _ => .storeUnavailable)
  exit ((← ask (.syncData w.file)).mapError fun _ => .storeUnavailable)

/-- Append the record, if there is one; the file is dropped in any case. -/
def finish (w : FileWriter) (record : Except AppendError Record) : FsProgram (Except AppendError Unit) := do
  let result ← (do w.appendTerminal (← exit record) : FsCall AppendError Unit).run
  let _ ← request (.close w.file)
  return result

def appendAssistant (w : FileWriter) (text : String) : FsProgram (Except AppendError Unit) :=
  w.finish (w.writer.assistantRecord text)

def appendFailure (w : FileWriter) (failureCode : FailureCode) : FsProgram (Except AppendError Unit) :=
  w.finish (w.writer.failureRecord failureCode)

inductive RollbackError where
  | storeUnavailable
  deriving DecidableEq, Repr

def rollback (w : FileWriter) : FsCall RollbackError Unit := do
  let same ← ExceptT.lift (identityMatches w.file w.writer.sessionId)
  let _ ← ask (.close w.file)
  exit (rejectIf (!same) .storeUnavailable)
  exit ((← ask (.removeFile w.writer.sessionId)).mapError fun _ => .storeUnavailable)
  exit ((← ask (.syncDirectory .sessions)).mapError fun _ => .storeUnavailable)

end FileWriter

/-! ## Reading one session -/

inductive ShowError where
  | invalidSessionId
  | missing
  | busy
  | unsupportedVersion
  | corrupt
  | storeUnavailable
  deriving DecidableEq, Repr

def mapProjectionError : ProjectionError → ShowError
  | .unsupportedVersion => .unsupportedVersion
  | .corrupt => .corrupt

def mapOpenError : IoError → ShowError
  | .notFound => .missing
  | _ => .storeUnavailable

def mapLockError : TryLockError → ShowError
  | .wouldBlock => .busy
  | .error => .storeUnavailable

def validatePrivateDirectory (d : Directory) : FsCall ShowError Unit := do
  let m ← exit ((← ask (.symlinkMetadata (.directory d))).mapError mapOpenError)
  exit (rejectIf (m.kind != .directory) .storeUnavailable)
  exit (rejectIf (!isPrivate m.mode) .storeUnavailable)

structure ListReadBudget where
  used : Nat
  limit : Nat
  deriving DecidableEq, Repr

inductive FileInspectionError where
  | shown (error : ShowError)
  | inventoryTooLarge
  deriving DecidableEq, Repr

def ListReadBudget.charge (budget : ListReadBudget) (size : Nat) : Except FileInspectionError ListReadBudget :=
  if budget.used + size > budget.limit then .error .inventoryTooLarge else .ok { budget with used := budget.used + size }

inductive ReadPolicy where
  | showing
  | listing (budget : ListReadBudget)
  deriving DecidableEq, Repr

/-- The budget, or the one there was. -/
def ReadPolicy.budget (policy : ReadPolicy) (budget : ListReadBudget) : ListReadBudget :=
  match policy with
  | .listing budget => budget
  | .showing => budget

/-- Check the open file, take a shared lock on it and see how long it is. -/
def lockedSize (file : Nat) (id : String) : FsCall ShowError Nat := do
  let same ← ExceptT.lift (identityMatches file id)
  exit (rejectIf (!same) .storeUnavailable)
  let unshared ← ExceptT.lift (privateFilePermissions file)
  exit (rejectIf (!unshared) .storeUnavailable)
  exit ((← ask (.tryLockShared file)).mapError mapLockError)
  let m ← exit ((← ask (.metadata file)).mapError fun _ => .storeUnavailable)
  exit (rejectIf (m.len > maxSessionBytes) .corrupt)
  return m.len

def readShown (file : Nat) (id : String) : FsCall ShowError Bytes := do
  let bytes ← exit ((← ask (.read file (maxSessionBytes + 1))).mapError fun _ => .storeUnavailable)
  exit (rejectIf (bytes.length > maxSessionBytes) .corrupt)
  let same ← ExceptT.lift (identityMatches file id)
  exit (rejectIf (!same) .corrupt)
  return bytes

/-- The file is still as long as it was. -/
def unchangedSize (m : Except IoError Metadata) (size : Nat) : Bool :=
  match m with
  | .ok m => m.len == size
  | .error _ => false

def readListed (file : Nat) (id : String) (size : Nat) : FsCall ShowError Bytes := do
  let bytes ← exit ((← ask (.read file size)).mapError fun _ => .storeUnavailable)
  let m ← ask (.metadata file)
  exit (rejectIf (bytes.length != size || !unchangedSize m size) .corrupt)
  let same ← ExceptT.lift (identityMatches file id)
  exit (rejectIf (!same) .corrupt)
  return bytes

def projected (id : String) (bytes : Except ShowError Bytes) : Except FileInspectionError ShowResult :=
  match bytes with
  | .ok bytes => (project bytes id).mapError fun e => .shown (mapProjectionError e)
  | .error e => .error (.shown e)

/-- What is made of a file that is open, and the budget left. -/
def inspectOpened (file : Nat) (id : String) (policy : ReadPolicy) :
    FsProgram (Except FileInspectionError ShowResult × ReadPolicy) := do
  match ← (lockedSize file id).run with
  | .error e => return (.error (.shown e), policy)
  | .ok size =>
    match policy with
    | .showing => return (projected id (← (readShown file id).run), .showing)
    | .listing budget =>
      match budget.charge size with
      | .error e => return (.error e, .listing budget)
      | .ok budget => return (projected id (← (readListed file id size).run), .listing budget)

def inspectFile (id : String) (policy : ReadPolicy) :
    FsProgram (Except FileInspectionError ShowResult × ReadPolicy) := do
  match ← request (.symlinkMetadata (.session id)) with
  | .error e => return (.error (.shown (mapOpenError e)), policy)
  | .ok m =>
    if m.kind ≠ .file then return (.error (.shown .storeUnavailable), policy)
    else match ← request (.openRead id) with
      | .error e => return (.error (.shown (mapOpenError e)), policy)
      | .ok file =>
        let result ← inspectOpened file id policy
        let _ ← request (.close file)
        return result

/-- Why a session is not shown. Showing has no budget to exceed. -/
def shownError : FileInspectionError → ShowError
  | .shown e => e
  | .inventoryTooLarge => .storeUnavailable

def showFile (sessionId : String) : FsCall ShowError ShowResult := do
  validatePrivateDirectory .application
  validatePrivateDirectory .sessions
  let (result, _) ← ExceptT.lift (inspectFile sessionId .showing)
  exit (result.mapError shownError)

/-- `SessionLog::show`. -/
def showSession (sessionId : String) : FsCall ShowError ShowResult :=
  if !validId sessionId then exit (.error .invalidSessionId) else showFile sessionId

/-! ## Listing -/

structure ListLimits where
  candidates : Nat
  directoryEntries : Nat
  readBytes : Nat
  deriving DecidableEq, Repr

def listLimits : ListLimits where
  candidates := 4096
  directoryEntries := 4096
  readBytes := 64 * 1024 * 1024

inductive ListError where
  | storeUnavailable
  | inventoryTooLarge
  deriving DecidableEq, Repr

inductive ListedSessionStatus where
  | completed
  | failed
  | interrupted
  | busy
  | corrupt
  | unsupported
  | unavailable
  deriving DecidableEq, Repr

structure SessionSummary where
  sessionId : String
  createdAtUnixMs : Option UInt64
  status : ListedSessionStatus
  trailingFragment : Bool
  deriving DecidableEq, Repr

def SessionSummary.unprojectable (sessionId : String) (status : ListedSessionStatus) : SessionSummary where
  sessionId
  createdAtUnixMs := none
  status
  trailingFragment := false

def ShowResult.intoSummary (r : ShowResult) : SessionSummary where
  sessionId := r.projection.sessionId
  createdAtUnixMs := some r.projection.createdAtUnixMs
  status := match r.projection.status with
    | .completed => .completed
    | .failed => .failed
    | .interrupted => .interrupted
  trailingFragment := r.trailingFragment

def listDirectoryExists (d : Directory) : FsCall ListError Bool := do
  match ← ExceptT.lift (validatePrivateDirectory d).run with
  | .ok _ => return true
  | .error .missing => return false
  | .error _ => exit (.error .storeUnavailable)

/-- The id a file name is the name of a session file for. -/
def canonicalSessionId (fileName : Bytes) : Option String := do
  let name ← ofUtf8? fileName
  let suffix := ".jsonl".toList
  if suffix.isSuffixOf name.toList then
    let sessionId := String.ofList (name.toList.take (name.length - suffix.length))
    if validId sessionId then some sessionId else none
  else none

/-- One more entry of the directory: how many there were, and the ids so far. -/
def collectEntry (limits : ListLimits) (acc : Nat × List String) (entry : Except IoError Bytes) :
    Except ListError (Nat × List String) := do
  let (directoryEntries, candidates) := acc
  let fileName ← entry.mapError fun _ => .storeUnavailable
  rejectIf (directoryEntries + 1 > limits.directoryEntries) .inventoryTooLarge
  match canonicalSessionId fileName with
  | none => return (directoryEntries + 1, candidates)
  | some sessionId =>
    rejectIf (candidates.length + 1 > limits.candidates) .inventoryTooLarge
    return (directoryEntries + 1, candidates ++ [sessionId])

def collectCandidateIds (entries : List (Except IoError Bytes)) (limits : ListLimits) :
    Except ListError (List String) := do
  let (_, candidates) ← entries.foldlM (collectEntry limits) (0, [])
  return candidates.mergeSort fun a b => decide (a ≤ b)

/-- What is listed of a session that cannot be shown; nothing of one that
is missing. -/
def listedError (sessionId : String) : ShowError → List SessionSummary
  | .missing => []
  | .busy => [.unprojectable sessionId .busy]
  | .unsupportedVersion => [.unprojectable sessionId .unsupported]
  | .corrupt => [.unprojectable sessionId .corrupt]
  | .storeUnavailable | .invalidSessionId => [.unprojectable sessionId .unavailable]

/-- Newest first, then what has no time, each by id. -/
def summaryLe (a b : SessionSummary) : Bool :=
  match a.createdAtUnixMs, b.createdAtUnixMs with
  | some s, some t => t < s || (s == t && decide (a.sessionId ≤ b.sessionId))
  | some _, none => true
  | none, some _ => false
  | none, none => decide (a.sessionId ≤ b.sessionId)

def summarizeCandidates : List String → ListReadBudget → FsCall ListError (List SessionSummary)
  | [], _ => return []
  | sessionId :: candidates, budget => do
    let (result, policy) ← ExceptT.lift (inspectFile sessionId (.listing budget))
    let budget := policy.budget budget
    match result with
    | .ok shown => return shown.intoSummary :: (← summarizeCandidates candidates budget)
    | .error .inventoryTooLarge => exit (.error .inventoryTooLarge)
    | .error (.shown e) => return listedError sessionId e ++ (← summarizeCandidates candidates budget)

def listFile (limits : ListLimits) : FsCall ListError (List SessionSummary) := do
  if !(← listDirectoryExists .application) then return []
  if !(← listDirectoryExists .sessions) then return []
  let directory ← exit ((← ask (.readDir .sessions)).mapError fun _ => .storeUnavailable)
  let candidates ← exit (collectCandidateIds directory limits)
  let summaries ← summarizeCandidates candidates { used := 0, limit := limits.readBytes }
  return summaries.mergeSort summaryLe

end AgentHarness.SessionLog
