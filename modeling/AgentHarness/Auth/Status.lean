/-
The stored credential as it is (`with_authorized_credential`): read once and
never refreshed, which is what the status of the connection is.
-/
import AgentHarness.Auth.Calls
import AgentHarness.Auth.Stored

namespace AgentHarness.Auth

open Text Except Interact

inductive CredentialReadError where
  | unsupportedPlatform
  | notConnected
  | storeUnavailable
  | unsupportedVersion
  | invalidCredential
  | expired
  deriving DecidableEq, Repr

/-- `Display` of the errors of a status. -/
def credentialReadErrorText : CredentialReadError → String
  | .unsupportedPlatform => "OpenAI Codex credentials are supported only on macOS"
  | .notConnected => "OpenAI Codex is not connected; run 'harness auth login openai-codex'"
  | .storeUnavailable => "the OpenAI Codex credential store is unavailable"
  | .unsupportedVersion | .invalidCredential =>
    "the stored OpenAI Codex connection is invalid; run 'harness auth login openai-codex'"
  | .expired => "the OpenAI Codex connection expired; run 'harness auth login openai-codex'"

/-- `Display` of the errors of a logout. -/
def logoutErrorText : LogoutError → String
  | .unsupportedPlatform => "OpenAI Codex credentials are supported only on macOS"
  | .storeUnavailable => "the OpenAI Codex credential store is unavailable"

def mapStoredCredentialError : StoredCredentialError → CredentialReadError
  | .unsupportedVersion => .unsupportedVersion
  | .malformed => .invalidCredential
  | .expired => .expired

variable {T E α : Type}

section
variable (S : SerdeJson)

def withAuthorizedCredentialFrom (operation : AuthorizedCredential → α) : Call T E CredentialReadError α := do
  let read ← exit ((← ask .read).mapError fun _ => .storeUnavailable)
  let serialized ← exit (okOr read .notConnected)
  let record ← exit ((CredentialRecord.deserialize S serialized (← ask .unixSeconds)).mapError mapStoredCredentialError)
  return operation (authorizedCredential record)

end

end AgentHarness.Auth
