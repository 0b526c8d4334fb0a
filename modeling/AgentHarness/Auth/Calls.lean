/-
The three calls that use the stored credential (`lib.rs`): running an
operation with a credential that is refreshed when it has to be, logging in
and logging out. Each is a program over the requests it makes of the world
outside: the store, the clock, the refresh lock, the token endpoint, the
browser flow and the caller's operation.
-/
import AgentHarness.Auth.Credential
import AgentHarness.Lib.Call

namespace AgentHarness.Auth

open Text Except Interact

inductive CredentialUseError where
  | unsupportedPlatform
  | notConnected
  | storeUnavailable
  | unsupportedVersion
  | invalidCredential
  | refreshCoordinationBusy
  | refreshTemporarilyUnavailable
  | reauthenticationRequired
  deriving DecidableEq, Repr

inductive LogoutError where
  | unsupportedPlatform
  | storeUnavailable
  deriving DecidableEq, Repr

inductive LoginError where
  | unsupportedPlatform
  | callbackPortsUnavailable
  | authorizationDenied
  | authorizationTemporarilyUnavailable
  | authorizationFailed
  | invalidCallback
  | timedOut
  | tokenExchangeUnavailable
  | tokenExchangeRejected
  | tokenResponseMalformed
  | credentialStoreUnavailable
  deriving DecidableEq, Repr

structure AuthorizedCredential where
  accessToken : String
  accountId : String
  deriving DecidableEq

structure ConnectedAccount where
  email : Option String
  plan : Option String
  deriving DecidableEq

/-- `keychain.rs` -/
structure StoreError where
  deriving DecidableEq

/-- `keychain.rs` -/
inductive DeleteOutcome where
  | deleted
  | absent
  deriving DecidableEq, Repr

/-- `refresh_lock.rs` -/
inductive LockError where
  | busy
  | unavailable
  deriving DecidableEq, Repr

/-- `refresh.rs` -/
inductive RefreshError where
  | reauthenticationRequired
  | unavailable
  deriving DecidableEq, Repr

/-- `callback.rs` -/
inductive CallbackError where
  | portsUnavailable
  | timedOut
  | listenerFailed
  deriving DecidableEq, Repr

/-- `callback.rs` -/
inductive CallbackOutcome where
  | code (code : String)
  | denied
  | authorizationTemporarilyUnavailable
  | authorizationFailed
  deriving DecidableEq, Repr

/-- `oauth.rs` -/
inductive ExchangeError where
  | unavailable
  | rejected
  | responseTooLarge
  | malformedResponse
  deriving DecidableEq, Repr

/-! ## Requests -/

/-- What a call asks of the world outside. `acquire` takes the refresh lock
and `release` is the drop of its guard. -/
inductive Request where
  | read
  | replace (record : Bytes)
  | delete
  | unixSeconds
  | acquire
  | release
  | refresh (refreshToken : String)
  | operation (credential : AuthorizedCredential)
  | bindCallback
  | openBrowser
  | waitCallback
  | exchangeCode (code : String)
  deriving DecidableEq

/-- What each request is answered with; `T` and `E` are what the caller's
operation returns. -/
def Answer (T E : Type) : Request → Type
  | .read => Except StoreError (Option Bytes)
  | .replace _ => Except StoreError Unit
  | .delete => Except StoreError DeleteOutcome
  | .unixSeconds => UInt64
  | .acquire => Except LockError Unit
  | .release => Unit
  | .refresh _ => Except RefreshError RefreshResponse
  | .operation _ => Except E T
  | .bindCallback => Except CallbackError Unit
  | .openBrowser => Except Unit Unit
  | .waitCallback => Except CallbackError CallbackOutcome
  | .exchangeCode _ => Except ExchangeError TokenResponse

/-- A call that may exit early with an `ε`. -/
abbrev Call (T E ε α : Type) := Interact.Call Request (Answer T E) ε α

variable {T E ε α : Type}

abbrev ask (r : Request) : Call T E ε (Answer T E r) := Interact.ask r

section
variable (S : SerdeJson)

def mapRefreshLockError : LockError → CredentialUseError
  | .busy => .refreshCoordinationBusy
  | .unavailable => .storeUnavailable

def mapRefreshError : RefreshError → CredentialUseError
  | .reauthenticationRequired => .reauthenticationRequired
  | .unavailable => .refreshTemporarilyUnavailable

def authorizedCredential (record : CredentialRecord) : AuthorizedCredential where
  accessToken := record.accessToken
  accountId := record.chatgptAccountId

/-- What `read_renewable_record` makes of the store's answer. -/
def renewableRecord (read : Except StoreError (Option Bytes)) :
    Except CredentialUseError (Bytes × CredentialRecord) := do
  let serialized ← okOr (← read.mapError fun _ => .storeUnavailable) .notConnected
  let record ← (CredentialRecord.deserializeStructural S serialized).mapError fun
    | .unsupportedVersion => .unsupportedVersion
    | .malformed | .expired => .invalidCredential
  return (serialized, record)

def readRenewableRecord : Call T E CredentialUseError (Bytes × CredentialRecord) := do
  exit (renewableRecord S (← ask .read))

/-- The refreshed record and its bytes, before they are persisted. -/
def refreshedRecord (record : CredentialRecord) (response : RefreshResponse) (now : UInt64) :
    Except CredentialUseError (Bytes × CredentialRecord) := do
  let replacement ← (record.applyRefresh S response now).mapError fun _ => .invalidCredential
  let replacementBytes ← (replacement.serialize S).mapError fun _ => .invalidCredential
  return (replacementBytes, replacement)

/-- Spend the record's refresh token and persist what comes of it: the steps
the proactive and the reactive path share. -/
def refreshAndReplace (record : CredentialRecord) : Call T E CredentialUseError (Bytes × CredentialRecord) := do
  let response ← exit ((← ask (.refresh record.refreshToken)).mapError mapRefreshError)
  let (replacementBytes, replacement) ← exit (refreshedRecord S record response (← ask .unixSeconds))
  exit ((← ask (.replace replacementBytes)).mapError fun _ => .storeUnavailable)
  return (replacementBytes, replacement)

/-- Run `body` holding the refresh lock: its guard is dropped however the
body ends. -/
def withRefreshLock (body : Call T E CredentialUseError α) : Call T E CredentialUseError α := do
  exit ((← ask .acquire).mapError mapRefreshLockError)
  let result ← ExceptT.lift body.run
  ask .release
  exit result

/-- The proactive path: what is attempted with the operation, and whether
the refresh endpoint was contacted for it. -/
def proactive (attemptedBytes : Bytes) (record : CredentialRecord) :
    Call T E CredentialUseError (Bytes × CredentialRecord × Bool) := do
  if record.refreshDue (← ask .unixSeconds) then
    withRefreshLock do
      let (rereadBytes, rereadRecord) ← readRenewableRecord S
      if rereadBytes != attemptedBytes then
        return (rereadBytes, rereadRecord, false)
      else
        let (replacementBytes, replacement) ← refreshAndReplace S record
        return (replacementBytes, replacement, true)
  else
    return (attemptedBytes, record, false)

/-- The reactive path: the record to replay the operation with, or none when
the first result stands. -/
def reactive (attemptedBytes : Bytes) (record : CredentialRecord) (contactedRefreshEndpoint : Bool) :
    Call T E CredentialUseError (Option CredentialRecord) :=
  withRefreshLock do
    let (rereadBytes, rereadRecord) ← readRenewableRecord S
    if rereadBytes != attemptedBytes then
      return some rereadRecord
    else if contactedRefreshEndpoint then
      return none
    else
      let (_, replacement) ← refreshAndReplace S record
      return some replacement

def withRenewableAuthorizedCredentialFrom (isUnauthorized : E → Bool) :
    Call T E CredentialUseError (Except E T) := do
  let (attemptedBytes, record) ← readRenewableRecord S
  let (attemptedBytes, record, contactedRefreshEndpoint) ← proactive S attemptedBytes record
  match ← ask (.operation (authorizedCredential record)) with
  | .ok value => return .ok value
  | .error firstError =>
    if !isUnauthorized firstError then
      return .error firstError
    else
      match ← reactive S attemptedBytes record contactedRefreshEndpoint with
      | none => return .error firstError
      | some replayRecord => ask (.operation (authorizedCredential replayRecord))

def logoutWith : Call T E LogoutError Unit := do
  match ← exit ((← ask .delete).mapError fun _ => .storeUnavailable) with
  | .deleted | .absent => return ()

def mapCallbackError : CallbackError → LoginError
  | .portsUnavailable => .callbackPortsUnavailable
  | .timedOut => .timedOut
  | .listenerFailed => .invalidCallback

def mapExchangeError : ExchangeError → LoginError
  | .unavailable => .tokenExchangeUnavailable
  | .rejected => .tokenExchangeRejected
  | .responseTooLarge | .malformedResponse => .tokenResponseMalformed

def callbackCode : CallbackOutcome → Except LoginError String
  | .code code => .ok code
  | .denied => .error .authorizationDenied
  | .authorizationTemporarilyUnavailable => .error .authorizationTemporarilyUnavailable
  | .authorizationFailed => .error .authorizationFailed

/-- A login. Its progress reports, and with them the outcome of opening the
browser, change nothing that follows. -/
def loginWith : Call T E LoginError ConnectedAccount := do
  exit ((← ask .bindCallback).mapError mapCallbackError)
  let _ ← ask .openBrowser
  let code ← exit (callbackCode (← exit ((← ask .waitCallback).mapError mapCallbackError)))
  let response ← exit ((← ask (.exchangeCode code)).mapError mapExchangeError)
  let credential ←
    exit ((CredentialRecord.validate S response (← ask .unixSeconds)).mapError fun _ => .tokenResponseMalformed)
  let serialized ← exit ((credential.serialize S).mapError fun _ => .tokenResponseMalformed)
  exit ((← ask (.replace serialized)).mapError fun _ => .credentialStoreUnavailable)
  return { email := credential.email, plan := credential.plan }

end

end AgentHarness.Auth
