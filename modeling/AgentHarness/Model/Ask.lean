/-
A question to the model (`openai-codex-model`): the prompt is checked, then
the call is made with the stored credential. What the call itself can fail
with is never that the prompt is invalid (`answers_prompt`).
-/
import AgentHarness.Auth.Renewable
import AgentHarness.Sse.Decode

namespace AgentHarness.Model

open Text Except Interact Auth

inductive ModelError where
  | invalidPrompt
  | unsupportedPlatform
  | notConnected
  | credentialStoreUnavailable
  | invalidCredential
  | expiredCredential
  | credentialRefreshBusy
  | credentialRefreshUnavailable
  | unavailable
  | unexpectedProviderResponse
  | connectionRejected
  | accessDenied
  | rateLimited
  | temporarilyUnavailable
  | rejected
  | invalidProviderResponse
  | callTimedOut
  | responseTooLarge
  | modelCallFailed
  | emptyResponse
  deriving DecidableEq, Repr

def maxPromptBytes : Nat := 32 * 1024

def validatePrompt (prompt : String) : Except ModelError Unit :=
  if (trim prompt).isEmpty || prompt.utf8ByteSize > maxPromptBytes then .error .invalidPrompt else .ok ()

/-! ## The exchange -/

structure RequestError where
  isTimeout : Bool
  deriving DecidableEq, Repr

structure Response where
  status : Nat
  contentType : Option Bytes
  reads : List (Except Sse.ReadError Bytes)

/-- What comes of building the client and of sending the request. -/
structure Exchange where
  client : Except Unit Unit
  sent : Except RequestError Response

def mapRequestError (error : RequestError) : ModelError :=
  if error.isTimeout then .callTimedOut else .unavailable

def statusError (status : Nat) : ModelError :=
  if status = 401 then .connectionRejected
  else if status = 403 then .accessDenied
  else if status = 408 then .temporarilyUnavailable
  else if status = 429 then .rateLimited
  else if 500 ≤ status ∧ status < 600 then .temporarilyUnavailable
  else if 300 ≤ status ∧ status < 400 then .unexpectedProviderResponse
  else if 400 ≤ status ∧ status < 500 then .rejected
  else .unexpectedProviderResponse

def validateStatus (status : Nat) : Except ModelError Unit :=
  if 200 ≤ status ∧ status < 300 then .ok () else .error (statusError status)

/-- A header's value as a text, when all of it is visible. -/
def headerText (value : Bytes) : Option String :=
  if value.all fun byte => (0x20 ≤ byte && byte < 0x7F) || byte == 0x09 then ofUtf8? value else none

def isEventStream (value : String) : Bool := (trim value).toList.map Char.toLower == "text/event-stream".toList

def validateContentType (contentType : Option Bytes) : Except ModelError Unit :=
  match contentType.bind headerText with
  | none => .ok ()
  | some contentType =>
    if (split ';' contentType).head?.any isEventStream then .ok () else .error .invalidProviderResponse

def mapDecodeError : Sse.DecodeError → ModelError
  | .invalid => .invalidProviderResponse
  | .limitExceeded => .responseTooLarge
  | .timedOut => .callTimedOut
  | .modelFailed => .modelCallFailed
  | .emptyText => .emptyResponse

section
variable (fromStr : String → Option Json) (limits : Sse.Limits) (clock : Nat → Nat)

def modelCallWith (exchange : Exchange) : Except ModelError String := do
  exchange.client.mapError fun _ => .unavailable
  let response ← exchange.sent.mapError mapRequestError
  validateStatus response.status
  validateContentType response.contentType
  (Sse.decode fromStr limits clock response.reads).mapError mapDecodeError

end

/-! ## With the credential -/

def mapCredentialUseError : CredentialUseError → ModelError
  | .unsupportedPlatform => .unsupportedPlatform
  | .notConnected => .notConnected
  | .storeUnavailable => .credentialStoreUnavailable
  | .unsupportedVersion | .invalidCredential => .invalidCredential
  | .refreshCoordinationBusy => .credentialRefreshBusy
  | .refreshTemporarilyUnavailable => .credentialRefreshUnavailable
  | .reauthenticationRequired => .connectionRejected

/-- Where the program runs, and what becomes of finding the refresh lock's file there. -/
structure Platform where
  macos : Bool
  refreshLock : Except LockError Unit

section
variable (S : SerdeJson) {T E : Type}

def withRenewableAuthorizedCredential (platform : Platform) (isUnauthorized : E → Bool) :
    Call T E CredentialUseError (Except E T) := do
  exit (rejectIf (!platform.macos) .unsupportedPlatform)
  exit (platform.refreshLock.mapError mapRefreshLockError)
  withRenewableAuthorizedCredentialFrom S isUnauthorized

/-- What a call with the credential returns, as the model's result. -/
def flatten : Except CredentialUseError (Except ModelError String) → Except ModelError String
  | .ok result => result
  | .error e => .error (mapCredentialUseError e)

def ask (platform : Platform) (prompt : String) :
    Program Request (Answer String ModelError) (Except ModelError String) :=
  match validatePrompt prompt with
  | .error e => .ret (.error e)
  | .ok _ =>
    (withRenewableAuthorizedCredential S platform fun error => error == .connectionRejected).run.bind fun result =>
      .ret (flatten result)

end

/-! ## Whose fault a failure is -/

theorem statusError_ne (status : Nat) : statusError status ≠ .invalidPrompt := by
  unfold statusError
  split_ifs <;> decide

theorem validateContentType_ne (contentType : Option Bytes) : validateContentType contentType ≠ .error .invalidPrompt := by
  unfold validateContentType
  split
  · exact fun heq => by cases heq
  · split <;> exact fun heq => by cases heq

theorem modelCallWith_ne {fromStr : String → Option Json} {limits : Sse.Limits} {clock : Nat → Nat}
    {exchange : Exchange} : modelCallWith fromStr limits clock exchange ≠ .error .invalidPrompt := by
  have hrequest : ∀ e, mapRequestError e ≠ .invalidPrompt := by
    intro e
    unfold mapRequestError
    split <;> decide
  have hstatus : ∀ status, validateStatus status ≠ .error .invalidPrompt := by
    intro status
    unfold validateStatus
    split
    · exact fun heq => by cases heq
    · exact fun heq => statusError_ne status (Except.error.inj heq)
  have hdecode : ∀ e, mapDecodeError e ≠ .invalidPrompt := by
    intro e
    cases e <;> decide
  intro h
  simp only [modelCallWith, bind_error_iff] at h
  obtain h | ⟨-, -, h | ⟨response, -, h | ⟨-, -, h | ⟨-, -, h⟩⟩⟩⟩ := h
  · exact mapError_ne (fun _ => by decide) h
  · exact mapError_ne hrequest h
  · exact hstatus _ h
  · exact validateContentType_ne _ h
  · exact mapError_ne hdecode h

theorem mapCredentialUseError_ne (e : CredentialUseError) : mapCredentialUseError e ≠ .invalidPrompt := by
  cases e <;> decide

theorem withRenewable_returned {T E : Type} {S : SerdeJson} {platform : Platform} {isUnauthorized : E → Bool} :
    (withRenewableAuthorizedCredential (T := T) S platform isUnauthorized).run.Meets (.free fun _ _ => True)
      (fun h res => ∀ x, res = .ok x → ∃ c, ⟨.operation c, x⟩ ∈ h) [] := by
  refine meets_exit_bind.mpr ⟨fun e _ x hx => (by cases hx), fun _ _ => ?_⟩
  refine meets_exit_bind.mpr ⟨fun e _ x hx => (by cases hx), fun _ _ => ?_⟩
  exact renewable_returned

/-- A question whose prompt is valid is refused for it by a model call only. -/
theorem ask_meets {S : SerdeJson} {platform : Platform} {prompt : String} (hprompt : validatePrompt prompt = .ok ()) :
    (ask S platform prompt).Meets (.free fun _ _ => True)
      (fun h x => (∀ c, ⟨.operation c, .error .invalidPrompt⟩ ∉ h) → x ≠ .error .invalidPrompt) [] := by
  unfold ask
  rw [hprompt]
  refine withRenewable_returned.bind fun h res hres hno => ?_
  cases res with
  | error e => exact fun heq => mapCredentialUseError_ne e (Except.error.inj heq)
  | ok result =>
    obtain ⟨c, hmem⟩ := hres result rfl
    intro heq
    obtain rfl : result = .error .invalidPrompt := heq
    exact hno c hmem

/-- What the production model can answer a prompt with: an execution of `ask`
whose operations are model calls. -/
def Answers (S : SerdeJson) (fromStr : String → Option Json) (limits : Sse.Limits) (platform : Platform) (prompt : String)
    (answer : Except ModelError String) : Prop :=
  ∃ tr, (ask S platform prompt).Follows tr (.ret answer) ∧
    ∀ c a, ⟨.operation c, a⟩ ∈ tr → ∃ clock exchange, a = modelCallWith fromStr limits clock exchange

/-- **The prompt is never what a valid question fails for.** -/
theorem answers_prompt {S : SerdeJson} {fromStr : String → Option Json} {limits : Sse.Limits} {platform : Platform}
    {prompt : String} {answer : Except ModelError String} (hprompt : validatePrompt prompt = .ok ())
    (h : Answers S fromStr limits platform prompt answer) : answer ≠ .error .invalidPrompt := by
  obtain ⟨tr, hf, hcalls⟩ := h
  have hanswered := Program.meets_ret.mp ((ask_meets hprompt).follows_free hf)
  have hnone : ∀ c, ⟨.operation c, .error .invalidPrompt⟩ ∉ tr := by
    intro c hmem
    obtain ⟨clock, exchange, heq⟩ := hcalls c _ hmem
    exact modelCallWith_ne heq.symm
  exact hanswered hnone

end AgentHarness.Model
