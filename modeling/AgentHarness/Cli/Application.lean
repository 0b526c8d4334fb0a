/-
The application (`run_application`): what a command line does, as a program
over the actions and the two output streams, and the exit status that comes
of it (`complete`).
-/
import AgentHarness.Auth.Login
import AgentHarness.Auth.Status
import AgentHarness.Cli.Listing
import AgentHarness.Cli.RunAsk

namespace AgentHarness.Cli

open Text Interact Model Auth
open SessionLog (SessionSummary ShowResult ShowError ListError)

/-! ## Requests -/

/-- What the application asks of its actions. The streams, and all that is
asked for a question, are among the requests of `runAsk`. -/
inductive Request where
  | ask (r : AskRequest)
  | login (r : LoginRequest)
  | logout
  | status
  | modelTest
  | list
  | inspect (sessionId : String)
  deriving DecidableEq

def Answer : Request → Type
  | .ask r => AskAnswer r
  | .login r => LoginAnswer r
  | .logout => Except LogoutError Unit
  | .status => Except CredentialReadError Unit
  | .modelTest => Except ModelError String
  | .list => Except ListError (List SessionSummary)
  | .inspect _ => Except ShowError ShowResult

abbrev AppProgram := Program Request Answer

abbrev AppHistory := List (Event Answer)

abbrev perform (r : Request) : AppProgram (Answer r) := Program.request r

/-- What is written on standard output, and on standard error. -/
abbrev writeOut (text : String) : AppProgram (Except ErrorKind Unit) := perform (.ask (.stdout text))
abbrev writeErr (text : String) : AppProgram (Except ErrorKind Unit) := perform (.ask (.stderr text))

abbrev asking {α : Type} (p : AskProgram α) : AppProgram α := Program.lift Request.ask p

def Completion.ofStdout (status : ExitCode) (stdout : Except ErrorKind Unit) : Completion where
  status
  stdout
  stderr := .ok ()

/-! ## The commands -/

/-- `Display` of the errors of showing a session. -/
def showErrorText : ShowError → String
  | .invalidSessionId => "the session identifier is invalid"
  | .missing => "the session was not found"
  | .busy => "the session is still being written; try again"
  | .unsupportedVersion => "the session format version is not supported"
  | .corrupt => "the session data is corrupt"
  | .storeUnavailable => "the local session store is unavailable"

/-- The line for an action that failed. -/
def failed (error : String) : AppProgram Completion := do
  return .ofStderr failure (← writeErr ("error: " ++ error ++ "\n"))

/-- The line for an action that is done. -/
def done (line : String) : AppProgram Completion := do
  return .ofStdout success (← writeOut (line ++ "\n"))

def runStatus : AppProgram Completion := do
  match ← perform .status with
  | .ok _ => done "OpenAI Codex is connected."
  | .error error => failed (credentialReadErrorText error)

def runLogout : AppProgram Completion := do
  match ← perform .logout with
  | .ok _ => done "OpenAI Codex is disconnected."
  | .error error => failed (logoutErrorText error)

def writeModelText (text : String) : AppProgram Completion := do
  match ← writeOut (renderModelText text) with
  | .ok _ => return .ofStdout success (.ok ())
  | .error .brokenPipe => return .ofStdout success (.error .brokenPipe)
  | .error .other =>
    return { status := failure, stdout := .error .other, stderr := ← writeErr "error: unable to write model output\n" }

def runModelTest : AppProgram Completion := do
  match ← perform .modelTest with
  | .ok text => writeModelText text
  | .error error => failed (modelErrorText error)

/-- The line for a write on standard output that failed otherwise than by a
broken pipe, after what has been written on standard error. -/
def outputLine (stdout stderr : Except ErrorKind Unit) (text : String) : AskProgram (Except ErrorKind Unit) :=
  match stdout with
  | .error .other => errorLine stderr text
  | .error .brokenPipe | .ok _ => pure stderr

def warningLines (stderr : Except ErrorKind Unit) : List SessionSummary → AskProgram (Except ErrorKind Unit)
  | [] => pure stderr
  | entry :: entries => do
    let stderr ← errorLine stderr ("warning: session " ++ entry.sessionId ++ ": " ++ trailingFragmentWarning)
    warningLines stderr entries

def runSessionList : AppProgram Completion := do
  match ← perform .list with
  | .error error => failed (listErrorText error)
  | .ok entries =>
    let stdout ← writeOut (renderSessionList entries)
    let stderr ← asking (warningLines (.ok ()) (entries.filter SessionSummary.trailingFragment))
    let stderr ← asking (outputLine stdout stderr "error: unable to write session list")
    return { status := success, stdout, stderr }

def fragmentLine (shown : ShowResult) : AskProgram (Except ErrorKind Unit) :=
  if shown.trailingFragment then errorLine (.ok ()) ("warning: " ++ trailingFragmentWarning) else pure (.ok ())

def runSessionShow (sessionId : String) : AppProgram Completion := do
  match ← perform (.inspect sessionId) with
  | .error error => failed (showErrorText error)
  | .ok shown =>
    let stdout ← writeOut (renderSession shown)
    let stderr ← asking (fragmentLine shown)
    let stderr ← asking (outputLine stdout stderr "error: unable to write session output")
    return { status := success, stdout, stderr }

/-! ## The login -/

def progressText : LoginProgress → String
  | .openingBrowser => "Opening your browser to connect OpenAI Codex.\n"
  | .authorizationUrl url => "If it does not open, visit: " ++ url ++ "\n"
  | .browserLaunchFailed => "The browser did not open; use the authorization URL above.\n"

/-- A report, unless one could not be written before. -/
def reportProgress (outputError : Except ErrorKind Unit) (progress : LoginProgress) :
    AppProgram (Except ErrorKind Unit × Unit) :=
  match outputError with
  | .error e => .ret (.error e, ())
  | .ok _ => .ask (.ask (.stderr (progressText progress))) fun result => .ret (result, ())

/-- A login's reports are written; the rest of its requests are the application's. -/
def reporting (outputError : Except ErrorKind Unit) :
    (r : LoginRequest) → AppProgram (Except ErrorKind Unit × LoginAnswer r)
  | .report progress => reportProgress outputError progress
  | r => .ask (.login r) fun a => .ret (outputError, a)

def connectedText (account : ConnectedAccount) : String :=
  "Connected to OpenAI Codex as " ++ account.email.getD "your account" ++ "."

def loggedIn : Except ErrorKind Unit × Except LoginError ConnectedAccount → AppProgram Completion
  | (.error error, result) => return .ofStderr (if result.isOk then success else failure) (.error error)
  | (.ok _, .ok account) => done (connectedText account)
  | (.ok _, .error error) => failed (loginErrorText error)

def runLogin (login : LoginCall ConnectedAccount) : AppProgram Completion :=
  (Program.interpret reporting (.ok ()) login.run).bind loggedIn

/-! ## The application -/

section
variable (tables : EscapeTables) (login : LoginCall ConnectedAccount)

def notice (text : String) : AppProgram Completion := do
  return .ofStdout success (← writeOut text)

def refused (text : String) : AppProgram Completion := do
  return .ofStderr 2 (← writeErr text)

def runCommand : Command → AppProgram Completion
  | .rootHelp => notice rootHelpText
  | .version => notice versionText
  | .askHelp => notice askHelpText
  | .askOpenAiCodex prompt => asking (runAsk prompt)
  | .invalidPrompt => refused promptErrorText
  | .sessionHelp => notice sessionHelpText
  | .sessionListHelp => notice sessionListHelpText
  | .sessionList => runSessionList
  | .sessionShowHelp => notice sessionShowHelpText
  | .sessionShow sessionId => runSessionShow sessionId
  | .authHelp => notice authHelpText
  | .loginHelp => notice loginHelpText
  | .loginOpenAiCodex => runLogin login
  | .logoutHelp => notice logoutHelpText
  | .logoutOpenAiCodex => runLogout
  | .statusHelp => notice statusHelpText
  | .statusOpenAiCodex => runStatus
  | .modelHelp => notice modelHelpText
  | .modelTestHelp => notice modelTestHelpText
  | .modelTestOpenAiCodex => runModelTest
  | .usageError argument usage => refused (usageErrorText tables argument usage)

def runApplication (arguments : List OsString) : AppProgram Completion := runCommand tables login (parseCommand arguments)

end

def Completion.failedOutput (completion : Completion) : Bool :=
  completion.stdout == .error .other || completion.stderr == .error .other

def complete (completion : Completion) : ExitCode :=
  if completion.failedOutput && completion.status == success then failure else completion.status

end AgentHarness.Cli
