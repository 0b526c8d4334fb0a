/-
What the command line does with a question (`run_ask`), as a program over the
session, the model and the two output streams; and which lines have an effect
at all. A question that is asked is one the model accepts, so its session is
never rolled back.
-/
import AgentHarness.Cli.Command
import AgentHarness.Cli.Render
import AgentHarness.Model.Ask
import AgentHarness.SessionLog.Reading

namespace AgentHarness.Cli

open Text Interact Model
open SessionLog (FailureCode CreateError AppendError showSession)

inductive ErrorKind where
  | brokenPipe
  | other
  deriving DecidableEq, Repr

abbrev ExitCode := UInt8

def success : ExitCode := 0
def failure : ExitCode := 1

structure Completion where
  status : ExitCode
  stdout : Except ErrorKind Unit
  stderr : Except ErrorKind Unit

def Completion.ofStderr (status : ExitCode) (stderr : Except ErrorKind Unit) : Completion where
  status
  stdout := .ok ()
  stderr

/-! ## Asking -/

inductive AskRequest where
  | start (prompt : String)
  | askOpenAiCodex (prompt : String)
  | appendAssistant (text : String)
  | appendFailure (failureCode : FailureCode)
  | rollback
  | stdout (text : String)
  | stderr (text : String)
  deriving DecidableEq

def AskAnswer : AskRequest → Type
  | .start _ => Except CreateError String
  | .askOpenAiCodex _ => Except ModelError String
  | .appendAssistant _ | .appendFailure _ => Except AppendError Unit
  | .rollback => Except SessionLog.FileWriter.RollbackError Unit
  | .stdout _ | .stderr _ => Except ErrorKind Unit

abbrev AskProgram := Program AskRequest AskAnswer

abbrev request (r : AskRequest) : AskProgram (AskAnswer r) := Program.request r

/-- `Display` of the errors of a session. -/
def createErrorText : String := "unable to create the local session"
def appendErrorText : String := "unable to persist the local session result"
def rollbackErrorText : String := "unable to roll back the invalid local session"

/-- `Display` of the errors of the model. -/
def modelErrorText : ModelError → String
  | .invalidPrompt => "the prompt must contain non-whitespace text and be at most 32768 bytes"
  | .unsupportedPlatform => "OpenAI Codex model calls are supported only on macOS"
  | .notConnected => "OpenAI Codex is not connected; run 'harness auth login openai-codex'"
  | .credentialStoreUnavailable => "the OpenAI Codex credential store is unavailable"
  | .invalidCredential => "the stored OpenAI Codex connection is invalid; run 'harness auth login openai-codex'"
  | .expiredCredential => "the OpenAI Codex connection expired; run 'harness auth login openai-codex'"
  | .credentialRefreshBusy => "OpenAI Codex credential refresh is already in progress; try again"
  | .credentialRefreshUnavailable => "OpenAI Codex credential refresh is temporarily unavailable; try again"
  | .unavailable => "OpenAI Codex is unavailable; try again"
  | .unexpectedProviderResponse => "OpenAI Codex returned an unexpected response"
  | .connectionRejected => "OpenAI Codex rejected the connection; run 'harness auth login openai-codex'"
  | .accessDenied => "this account does not have access to the Codex model request"
  | .rateLimited => "OpenAI Codex usage or rate limit reached"
  | .temporarilyUnavailable => "OpenAI Codex is temporarily unavailable; try again"
  | .rejected => "OpenAI Codex rejected the model request"
  | .invalidProviderResponse => "OpenAI Codex returned an invalid response"
  | .callTimedOut => "the OpenAI Codex model call timed out"
  | .responseTooLarge => "OpenAI Codex returned a response that exceeded harness limits"
  | .modelCallFailed => "the OpenAI Codex model call did not complete"
  | .emptyResponse => "OpenAI Codex returned no text"

/-- The code of a failure that is retained. There is none for a prompt. -/
def modelFailureCode : (error : ModelError) → error ≠ .invalidPrompt → FailureCode
  | .invalidPrompt, h => absurd rfl h
  | .unsupportedPlatform, _ => .unsupportedPlatform
  | .notConnected, _ => .notConnected
  | .credentialStoreUnavailable, _ => .credentialStoreUnavailable
  | .invalidCredential, _ => .invalidCredential
  | .expiredCredential, _ => .expiredCredential
  | .credentialRefreshBusy, _ => .credentialRefreshBusy
  | .credentialRefreshUnavailable, _ => .credentialRefreshUnavailable
  | .unavailable, _ => .unavailable
  | .unexpectedProviderResponse, _ => .unexpectedProviderResponse
  | .connectionRejected, _ => .connectionRejected
  | .accessDenied, _ => .accessDenied
  | .rateLimited, _ => .rateLimited
  | .temporarilyUnavailable, _ => .temporarilyUnavailable
  | .rejected, _ => .rejected
  | .invalidProviderResponse, _ => .invalidProviderResponse
  | .callTimedOut, _ => .callTimedOut
  | .responseTooLarge, _ => .responseTooLarge
  | .modelCallFailed, _ => .modelCallFailed
  | .emptyResponse, _ => .emptyResponse

def promptErrorText : String :=
  "error: prompt must contain non-whitespace text and be at most 32768 bytes\n\nUsage: " ++ askUsage ++
    "\n\nFor more information, try '--help'.\n"

def retainFirstError (result next : Except ErrorKind Unit) : Except ErrorKind Unit :=
  match result with
  | .ok _ => next
  | .error e => .error e

/-- A line on standard error, after what has been written there. -/
def errorLine (result : Except ErrorKind Unit) (text : String) : AskProgram (Except ErrorKind Unit) := do
  return retainFirstError result (← request (.stderr (text ++ "\n")))

/-- The line for an append that failed, if it did. -/
def appendErrorLine (append : Except AppendError Unit) (result : Except ErrorKind Unit) :
    AskProgram (Except ErrorKind Unit) :=
  match append with
  | .ok _ => pure result
  | .error _ => errorLine result ("error: " ++ appendErrorText)

/-- The line for an output that failed otherwise than by a broken pipe. -/
def outputErrorLine (stdout : Except ErrorKind Unit) : AskProgram (Except ErrorKind Unit) :=
  match stdout with
  | .error .other => errorLine (.ok ()) "error: unable to write model output"
  | .error .brokenPipe | .ok _ => pure (.ok ())

def answered (sessionId text : String) : AskProgram Completion := do
  let append ← request (.appendAssistant text)
  let status := if append.isOk then success else failure
  let stdout ← request (.stdout (renderModelText text))
  let stderr ← outputErrorLine stdout
  let stderr ← appendErrorLine append stderr
  let stderr ← errorLine stderr ("Session: " ++ sessionId)
  return { status, stdout, stderr }

def notAnswered (sessionId : String) (error : ModelError) (h : error ≠ .invalidPrompt) :
    AskProgram Completion := do
  let append ← request (.appendFailure (modelFailureCode error h))
  let stderr ← request (.stderr ("error: " ++ modelErrorText error ++ "\n"))
  let stderr ← appendErrorLine append stderr
  let stderr ← errorLine stderr ("Session: " ++ sessionId)
  return .ofStderr failure stderr

/-- The session of a prompt that the model refuses. -/
def rolledBack : AskProgram Completion := do
  match ← request .rollback with
  | .ok _ => return .ofStderr 2 (← request (.stderr promptErrorText))
  | .error _ => return .ofStderr failure (← request (.stderr ("error: " ++ rollbackErrorText ++ "\n")))

def runAsk (prompt : String) : AskProgram Completion := do
  match ← request (.start prompt) with
  | .error _ => return .ofStderr failure (← request (.stderr ("error: " ++ createErrorText ++ "\n")))
  | .ok sessionId =>
    match ← request (.askOpenAiCodex prompt) with
    | .ok text => answered sessionId text
    | .error error => if h : error = .invalidPrompt then rolledBack else notAnswered sessionId error h

/-! ## A prompt the model accepts -/

section
variable {prompt : String}

/-- The session is started and the model asked with the prompt as it is, and
no session is rolled back, as long as the model does not refuse the prompt. -/
def askContract (prompt : String) : Contract AskRequest AskAnswer where
  rely := fun _ r a =>
    match r, a with
    | .askOpenAiCodex asked, answer => asked = prompt → answer ≠ .error .invalidPrompt
    | _, _ => True
  guar := fun _ r =>
    match r with
    | .start asked | .askOpenAiCodex asked => asked = prompt
    | .rollback => False
    | _ => True

theorem errorLine_meets {result : Except ErrorKind Unit} {text : String} {h : List (Event AskAnswer)} :
    (errorLine result text).Meets (askContract prompt) (fun _ _ => True) h := ⟨trivial, fun _ _ => trivial⟩

theorem appendErrorLine_meets {append : Except AppendError Unit} {result : Except ErrorKind Unit}
    {h : List (Event AskAnswer)} :
    (appendErrorLine append result).Meets (askContract prompt) (fun _ _ => True) h := by
  cases append with
  | ok _ => trivial
  | error _ => exact errorLine_meets

theorem outputErrorLine_meets {stdout : Except ErrorKind Unit} {h : List (Event AskAnswer)} :
    (outputErrorLine stdout).Meets (askContract prompt) (fun _ _ => True) h := by
  unfold outputErrorLine
  split
  · exact errorLine_meets
  · trivial
  · trivial

theorem answered_meets {sessionId text : String} {h : List (Event AskAnswer)} :
    (answered sessionId text).Meets (askContract prompt) (fun _ _ => True) h := by
  refine Program.meets_request_bind.mpr ⟨trivial, fun append _ => ?_⟩
  refine Program.meets_request_bind.mpr ⟨trivial, fun stdout _ => ?_⟩
  refine outputErrorLine_meets.bind fun h _ _ => ?_
  refine appendErrorLine_meets.bind fun h _ _ => ?_
  exact errorLine_meets.bind fun h _ _ => trivial

theorem notAnswered_meets {sessionId : String} {error : ModelError} {hne : error ≠ .invalidPrompt}
    {h : List (Event AskAnswer)} :
    (notAnswered sessionId error hne).Meets (askContract prompt) (fun _ _ => True) h := by
  refine Program.meets_request_bind.mpr ⟨trivial, fun append _ => ?_⟩
  refine Program.meets_request_bind.mpr ⟨trivial, fun stderr _ => ?_⟩
  refine appendErrorLine_meets.bind fun h _ _ => ?_
  exact errorLine_meets.bind fun h _ _ => trivial

theorem runAsk_meets : (runAsk prompt).Meets (askContract prompt) (fun _ _ => True) [] := by
  refine Program.meets_request_bind.mpr ⟨rfl, fun started _ => ?_⟩
  cases started with
  | error e => exact ⟨trivial, fun _ _ => trivial⟩
  | ok sessionId =>
    refine Program.meets_request_bind.mpr ⟨rfl, fun answer hanswer => ?_⟩
    cases answer with
    | ok text => exact answered_meets
    | error error =>
      have hne : error ≠ .invalidPrompt := by
        intro heq
        exact hanswer rfl (by rw [heq])
      dsimp only
      rw [dif_neg hne]
      exact notAnswered_meets

end

/-- The prompts that the model accepts are those that are read of a line. -/
theorem validatePrompt_of_valid {prompt : String} (h : validPrompt prompt = true) : validatePrompt prompt = .ok () := by
  simp only [validPrompt, Bool.and_eq_true, Bool.not_eq_true', decide_eq_true_eq] at h
  obtain ⟨htext, hsize⟩ := h
  have hsize : ¬prompt.utf8ByteSize > Model.maxPromptBytes := Nat.not_lt.mpr hsize
  simp [validatePrompt, htext, hsize]

/-- A prompt the model accepts is asked as it is, and its session stays. -/
theorem runAsk_keeps {S : Auth.SerdeJson} {fromStr : String → Option Json} {limits : Sse.Limits} {platform : Platform}
    {prompt : String} (hprompt : validatePrompt prompt = .ok ()) {tr : List (Event AskAnswer)} {q : AskProgram Completion}
    (hf : (runAsk prompt).Follows tr q)
    (hmodel : ∀ asked answer, ⟨.askOpenAiCodex asked, answer⟩ ∈ tr → Model.Answers S fromStr limits platform asked answer) :
    ∀ e ∈ tr, (askContract prompt).guar [] e.1 := by
  intro e he
  obtain ⟨pre, post, rfl⟩ := List.append_of_mem he
  suffices hguar : (askContract prompt).guar ([] ++ pre) e.1 from hguar
  refine Program.Meets.guar runAsk_meets hf fun pre' e' post' heq => ?_
  subst heq
  obtain ⟨r, answer⟩ := e'
  cases r with
  | askOpenAiCodex asked =>
    intro hasked
    subst hasked
    exact answers_prompt hprompt (hmodel asked answer (by simp))
  | _ => trivial

/-! ## The lines with an effect -/

/-- **Only exact lines have an effect**: each effect has its one form, what
it is done with is what the line says, unmodified, and what the model and the
log accept, and any other line gives help, the version or an error. -/
theorem commandLine_exact (arguments : List OsString) :
    (∀ prompt, parseCommand arguments = .askOpenAiCodex prompt ↔
      arguments = [utf8 "ask", utf8 "openai-codex", utf8 prompt] ∧ prompt ∉ ["-h", "--help", "--"] ∧
        (∃ character ∈ prompt.toList, isWhitespace character = false) ∧ prompt.utf8ByteSize ≤ 32768) ∧
    (∀ prompt, parseCommand arguments = .askOpenAiCodex prompt → validatePrompt prompt = .ok () ∧
      ∀ S fromStr limits platform tr q, (runAsk prompt).Follows tr q →
        (∀ asked answer, ⟨.askOpenAiCodex asked, answer⟩ ∈ tr → Model.Answers S fromStr limits platform asked answer) →
        (∀ started result, ⟨.start started, result⟩ ∈ tr → started = prompt) ∧
        (∀ asked answer, ⟨.askOpenAiCodex asked, answer⟩ ∈ tr → asked = prompt) ∧ ∀ result, ⟨.rollback, result⟩ ∉ tr) ∧
    (∀ sessionId, parseCommand arguments = .sessionShow sessionId ↔
      arguments = [utf8 "session", utf8 "show", utf8 sessionId] ∧ sessionId.toList.length = 32 ∧
        ∀ character ∈ sessionId.toList, character ∈ "0123456789abcdef".toList) ∧
    (∀ sessionId, parseCommand arguments = .sessionShow sessionId →
      ∀ tr x, (showSession sessionId).run.Follows tr (.ret x) → x ≠ .error .invalidSessionId) ∧
    (parseCommand arguments = .sessionList ↔ arguments = [utf8 "session", utf8 "list"]) ∧
    (parseCommand arguments = .loginOpenAiCodex ↔ arguments = [utf8 "auth", utf8 "login", utf8 "openai-codex"]) ∧
    (parseCommand arguments = .logoutOpenAiCodex ↔ arguments = [utf8 "auth", utf8 "logout", utf8 "openai-codex"]) ∧
    (parseCommand arguments = .statusOpenAiCodex ↔ arguments = [utf8 "auth", utf8 "status", utf8 "openai-codex"]) ∧
    (parseCommand arguments = .modelTestOpenAiCodex ↔ arguments = [utf8 "model", utf8 "test", utf8 "openai-codex"]) ∧
    ((¬∃ command, Line arguments command) → (parseCommand arguments).IsNotice) := by
  have hask : ∀ prompt, parseCommand arguments = .askOpenAiCodex prompt ↔ Line arguments (.askOpenAiCodex prompt) :=
    fun prompt => parseCommand_eq_iff id
  have hshow : ∀ sessionId, parseCommand arguments = .sessionShow sessionId ↔ Line arguments (.sessionShow sessionId) :=
    fun sessionId => parseCommand_eq_iff id
  refine ⟨fun prompt => ?_, fun prompt h => ?_, fun sessionId => ?_, fun sessionId h => ?_, ?_, ?_, ?_, ?_, ?_,
    parseCommand_isNotice_iff.mpr⟩
  · rw [hask, ← validPrompt_iff]
    constructor
    · intro h
      cases h with
      | ask hword hvalid => exact ⟨rfl, hword, hvalid⟩
    · intro h
      obtain ⟨rfl, hword, hvalid⟩ := h
      exact .ask hword hvalid
  · have hprompt : validatePrompt prompt = .ok () := by
      cases (hask prompt).mp h with
      | ask hword hvalid => exact validatePrompt_of_valid hvalid
    refine ⟨hprompt, fun S fromStr limits platform tr q hf hmodel => ?_⟩
    have hkeeps := runAsk_keeps hprompt hf hmodel
    exact ⟨fun started result hmem => hkeeps _ hmem, fun asked answer hmem => hkeeps _ hmem, fun result hmem => hkeeps _ hmem⟩
  · rw [hshow, ← validSessionId_iff]
    constructor
    · intro h
      cases h with
      | sessionShow hvalid => exact ⟨rfl, hvalid⟩
    · intro h
      obtain ⟨rfl, hvalid⟩ := h
      exact .sessionShow hvalid
  · intro tr x hf
    cases (hshow sessionId).mp h with
    | sessionShow hvalid => exact Program.Meets.follows_free (SessionLog.showSession_notForId hvalid []) hf
  all_goals
    rw [parseCommand_eq_iff id]
    constructor
    · intro h
      cases h
      rfl
    · intro h
      subst h
      constructor

end AgentHarness.Cli
