/-
A login as it is made (`login_with`): the port that is bound, the URL that is
reported and opened, the answer that is waited for and the form that is
posted, with the reports of its progress. Without these it is the call that
`loginWith` is (`login_simulates`), so whatever holds of that call's
executions holds of it. What it opens, waits for and posts is of one piece
(`login_coherent`).
-/
import AgentHarness.Auth.Authorize
import AgentHarness.Auth.Calls
import AgentHarness.Auth.Serde
import AgentHarness.Lib.Interpret

namespace AgentHarness.Auth

open Text Except Interact

inductive LoginProgress where
  | openingBrowser
  | authorizationUrl (url : String)
  | browserLaunchFailed
  deriving DecidableEq, Repr

structure LoginConfig where
  authorizationEndpoint : Url
  redirectPorts : List UInt16
  /-- In seconds. -/
  loginTimeout : Nat

def LoginConfig.production : LoginConfig where
  authorizationEndpoint := productionEndpoint
  redirectPorts := [1455, 1457]
  loginTimeout := 5 * 60

/-- `Display` of the errors of a login. -/
def loginErrorText : LoginError → String
  | .unsupportedPlatform => "OpenAI Codex login is supported only on macOS"
  | .callbackPortsUnavailable => "OpenAI Codex login could not bind callback ports 1455 or 1457"
  | .authorizationDenied => "OpenAI Codex authorization was denied"
  | .authorizationTemporarilyUnavailable => "OpenAI Codex authorization is temporarily unavailable; try again"
  | .authorizationFailed => "OpenAI Codex authorization failed; try again"
  | .invalidCallback => "OpenAI Codex returned an invalid authorization callback"
  | .timedOut => "OpenAI Codex login timed out; try again"
  | .tokenExchangeUnavailable => "OpenAI Codex token exchange is unavailable; try again"
  | .tokenExchangeRejected => "OpenAI Codex rejected the authorization; try logging in again"
  | .tokenResponseMalformed => "OpenAI Codex returned an invalid account credential"
  | .credentialStoreUnavailable => "the OpenAI Codex credential could not be saved to macOS Keychain"

/-! ## The login -/

/-- What a login asks of the world outside. `report` calls its caller back. -/
inductive LoginRequest where
  | bind (ports : List UInt16)
  | report (progress : LoginProgress)
  | openBrowser (url : String)
  | wait (state : String) (timeout : Nat)
  | exchangeCode (code redirectUri verifier : String)
  | unixSeconds
  | replace (record : Bytes)
  deriving DecidableEq

def LoginAnswer : LoginRequest → Type
  | .bind _ => Except CallbackError UInt16
  | .report _ => Unit
  | .openBrowser _ => Except Unit Unit
  | .wait _ _ => Except CallbackError CallbackOutcome
  | .exchangeCode _ _ _ => Except ExchangeError TokenResponse
  | .unixSeconds => UInt64
  | .replace _ => Except StoreError Unit

abbrev LoginCall (α : Type) := Interact.Call LoginRequest LoginAnswer LoginError α

abbrev askLogin (r : LoginRequest) : LoginCall (LoginAnswer r) := Interact.ask r

def reportOpened (opened : Except Unit Unit) : LoginCall Unit :=
  match opened with
  | .ok _ => pure ()
  | .error _ => askLogin (.report .browserLaunchFailed)

section
variable (S : SerdeJson)

/-- From the token response to the account. -/
def connect (response : TokenResponse) : LoginCall ConnectedAccount := do
  let credential ←
    exit ((CredentialRecord.validate S response (← askLogin .unixSeconds)).mapError fun _ => .tokenResponseMalformed)
  let serialized ← exit ((credential.serialize S).mapError fun _ => .tokenResponseMalformed)
  exit ((← askLogin (.replace serialized)).mapError fun _ => .credentialStoreUnavailable)
  return { email := credential.email, plan := credential.plan }

def loginReporting (config : LoginConfig) (secrets : AuthSecrets) : LoginCall ConnectedAccount := do
  let port ← exit ((← askLogin (.bind config.redirectPorts)).mapError mapCallbackError)
  let url := (authorizationUrl config.authorizationEndpoint (redirectUri port) secrets).text
  askLogin (.report .openingBrowser)
  askLogin (.report (.authorizationUrl url))
  reportOpened (← askLogin (.openBrowser url))
  let outcome ← exit ((← askLogin (.wait secrets.state config.loginTimeout)).mapError mapCallbackError)
  let code ← exit (callbackCode outcome)
  let response ← exit ((← askLogin (.exchangeCode code (redirectUri port) secrets.verifier)).mapError mapExchangeError)
  connect S response

def login (macos : Bool) (config : LoginConfig) (secrets : AuthSecrets) : LoginCall ConnectedAccount := do
  exit (rejectIf (!macos) .unsupportedPlatform)
  loginReporting S config secrets

end

/-! ## Without its reports -/

section
variable {T E : Type}

/-- An exchange of a login as one of `loginWith`; its reports are none. -/
def eraseReports : Event LoginAnswer → Option (Event (Answer T E))
  | ⟨.bind _, a⟩ => some ⟨.bindCallback, Except.map (fun _ => ()) a⟩
  | ⟨.report _, _⟩ => none
  | ⟨.openBrowser _, a⟩ => some ⟨.openBrowser, a⟩
  | ⟨.wait _ _, a⟩ => some ⟨.waitCallback, a⟩
  | ⟨.exchangeCode code _ _, a⟩ => some ⟨.exchangeCode code, a⟩
  | ⟨.unixSeconds, a⟩ => some ⟨.unixSeconds, a⟩
  | ⟨.replace record, a⟩ => some ⟨.replace record, a⟩

variable {S : SerdeJson} {config : LoginConfig} {secrets : AuthSecrets}

theorem map_mapError {ε ε' α β : Type} (f : ε → ε') (g : α → β) (x : Except ε α) :
    (x.mapError f).map g = (x.map g).mapError f := by
  cases x <;> rfl

theorem map_id {ε α : Type} (x : Except ε α) : x.map id = x := by
  cases x <;> rfl

/-- **A login without its reports** is the call that its concurrent runs are
about, and returns what that returns. -/
theorem login_simulates :
    Program.Simulates (eraseReports (T := T)) (loginReporting S config secrets).run (loginWith (E := E) S).run := by
  refine simulates_ask_bind (Except.map fun _ => ()) (fun _ => rfl) fun bound => ?_
  refine simulates_exit_bind (map_mapError _ _ _) fun port _ => ?_
  refine simulates_silent_bind (fun _ => rfl) fun _ => ?_
  refine simulates_silent_bind (fun _ => rfl) fun _ => ?_
  refine simulates_ask_bind (id : Except Unit Unit → Except Unit Unit) (fun _ => rfl) fun opened => ?_
  have hopened : ∀ {q : Call T E LoginError ConnectedAccount} {f : LoginCall ConnectedAccount},
      Program.Simulates (eraseReports (T := T) (E := E)) f.run q.run →
        Program.Simulates eraseReports (reportOpened opened >>= fun _ => f).run q.run := by
    intro q f hf
    cases opened with
    | ok _ => exact hf
    | error _ => exact simulates_silent_bind (fun _ => rfl) fun _ => hf
  refine hopened ?_
  refine simulates_ask_bind (id : Except CallbackError CallbackOutcome → Except CallbackError CallbackOutcome)
    (fun _ => rfl) fun waited => ?_
  refine simulates_exit_bind (map_id _) fun outcome _ => ?_
  refine simulates_exit_bind (map_id _) fun code _ => ?_
  refine simulates_ask_bind (id : Except ExchangeError TokenResponse → Except ExchangeError TokenResponse)
    (fun _ => rfl) fun exchanged => ?_
  refine simulates_exit_bind (map_id _) fun response _ => ?_
  refine simulates_ask_bind (id : UInt64 → UInt64) (fun _ => rfl) fun now => ?_
  refine simulates_exit_bind (map_id _) fun credential _ => ?_
  refine simulates_exit_bind (map_id _) fun serialized _ => ?_
  refine simulates_ask_bind (id : Except StoreError Unit → Except StoreError Unit) (fun _ => rfl) fun replaced => ?_
  exact simulates_exit_bind (map_id _) fun _ _ => .ret _

end

/-! ## What is opened, waited for and posted -/

abbrev LoginHistory := List (Event LoginAnswer)

section
variable (S : SerdeJson) (config : LoginConfig) (secrets : AuthSecrets)

/-- The port was bound before anything else was asked. -/
def PortBound (h : LoginHistory) (port : UInt16) : Prop := ∃ rest, h = ⟨.bind config.redirectPorts, .ok port⟩ :: rest

/-- The URL of the port. -/
def urlText (port : UInt16) : String := (authorizationUrl config.authorizationEndpoint (redirectUri port) secrets).text

/-- The record is of a credential that a token response gave. -/
def Validated (h : LoginHistory) (credential : CredentialRecord) (record : Bytes) : Prop :=
  ∃ code uri verifier response now, ⟨.exchangeCode code uri verifier, .ok response⟩ ∈ h ∧ ⟨.unixSeconds, now⟩ ∈ h ∧
    CredentialRecord.validate S response now = .ok credential ∧ credential.serialize S = .ok record

/-- No code was exchanged. -/
def Unexchanged (h : LoginHistory) : Prop := ∀ e ∈ h, ∀ code uri verifier, e.1 ≠ .exchangeCode code uri verifier

/-- What a login says of each of its requests. -/
def reportingGuar (h : LoginHistory) : LoginRequest → Prop
  | .bind ports => h = [] ∧ ports = config.redirectPorts
  | .report .openingBrowser => ∃ port, PortBound config h port
  | .report (.authorizationUrl url) => ∃ port, PortBound config h port ∧ url = urlText config secrets port
  | .report .browserLaunchFailed => ∃ url, ⟨.openBrowser url, .error ()⟩ ∈ h
  | .openBrowser url => ⟨.report (.authorizationUrl url), ()⟩ ∈ h
  | .wait state timeout => state = secrets.state ∧ timeout = config.loginTimeout ∧ ∃ url opened, ⟨.openBrowser url, opened⟩ ∈ h
  | .exchangeCode code uri verifier => Unexchanged h ∧ ⟨.wait secrets.state config.loginTimeout, .ok (.code code)⟩ ∈ h ∧
      verifier = secrets.verifier ∧ ∃ port, PortBound config h port ∧ uri = redirectUri port
  | .unixSeconds => ∃ code uri verifier response, ⟨.exchangeCode code uri verifier, .ok response⟩ ∈ h
  | .replace record => ∃ credential, Validated S h credential record

/-- No record was stored. -/
def Unstored (h : LoginHistory) : Prop := ∀ record, ⟨.replace record, .ok ()⟩ ∉ h

/-- A login gives an account when its record was stored, and else an error. -/
def LoginEnds (h : LoginHistory) : Except LoginError ConnectedAccount → Prop
  | .ok account => ∃ credential record, Validated S h credential record ∧ ⟨.replace record, .ok ()⟩ ∈ h ∧
      account = { email := credential.email, plan := credential.plan }
  | .error _ => Unstored h

end

section
variable {S : SerdeJson} {config : LoginConfig} {secrets : AuthSecrets} {h : LoginHistory} {port : UInt16}

theorem PortBound.append (hbound : PortBound config h port) (h' : LoginHistory) : PortBound config (h ++ h') port := by
  obtain ⟨rest, rfl⟩ := hbound
  exact ⟨rest ++ h', rfl⟩

theorem PortBound.unique {h₁ h₂ tr : LoginHistory} {port' : UInt16} (hbound : PortBound config h₁ port) (hbound' : PortBound config h₂ port')
    (hpre : h₁ <+: tr) (hpre' : h₂ <+: tr) : port = port' := by
  obtain ⟨rest, rfl⟩ := hbound
  obtain ⟨rest', rfl⟩ := hbound'
  obtain ⟨post, rfl⟩ := hpre
  obtain ⟨post', heq⟩ := hpre'
  obtain ⟨heq, -⟩ := List.cons.inj heq
  cases heq
  rfl

theorem Unstored.snoc (hnone : Unstored h) {r : LoginRequest} (hr : ∀ record, r ≠ .replace record) (a : LoginAnswer r) :
    Unstored (h ++ [⟨r, a⟩]) := by
  intro record hmem
  rcases List.mem_append.mp hmem with hmem | hmem
  · exact hnone record hmem
  · exact hr record (congrArg Sigma.fst (List.mem_singleton.mp hmem)).symm

theorem Unstored.failed (hnone : Unstored h) (record : Bytes) (e : StoreError) :
    Unstored (h ++ [⟨.replace record, .error e⟩]) := by
  intro record' hmem
  rcases List.mem_append.mp hmem with hmem | hmem
  · exact hnone record' hmem
  · cases List.mem_singleton.mp hmem

/-- From the token response on. -/
theorem connect_meets {code uri verifier : String} {response : TokenResponse}
    (hresponse : ⟨.exchangeCode code uri verifier, .ok response⟩ ∈ h) (hnone : Unstored h) :
    (connect S response).run.Meets (.free (reportingGuar S config secrets)) (LoginEnds S) h := by
  refine meets_ask_bind.mpr ⟨⟨code, uri, verifier, response, hresponse⟩, fun now _ => ?_⟩
  have hnone' := hnone.snoc (r := .unixSeconds) nofun now
  refine meets_exit_bind.mpr ⟨fun _ _ => hnone', fun credential hcredential => ?_⟩
  refine meets_exit_bind.mpr ⟨fun _ _ => hnone', fun record hrecord => ?_⟩
  have hvalid : Validated S (h ++ [⟨.unixSeconds, now⟩]) credential record :=
    ⟨code, uri, verifier, response, now, List.mem_append_left _ hresponse, List.mem_concat_self, of_mapError_ok hcredential, of_mapError_ok hrecord⟩
  refine meets_ask_bind.mpr ⟨⟨credential, hvalid⟩, fun replaced _ => ?_⟩
  cases replaced with
  | error e => exact hnone'.failed record e
  | ok _ =>
    obtain ⟨code, uri, verifier, response, now, hresponse, hnow, hcredential, hrecord⟩ := hvalid
    exact ⟨credential, record, ⟨code, uri, verifier, response, now, List.mem_append_left _ hresponse,
      List.mem_append_left _ hnow, hcredential, hrecord⟩, List.mem_concat_self, rfl⟩

/-- From the browser on. -/
theorem opened_meets {url : String} {opened : Except Unit Unit} (hbound : PortBound config h port)
    (hopened : ⟨.openBrowser url, opened⟩ ∈ h) (hfirst : Unexchanged h) (hnone : Unstored h) :
    (do
      let outcome ← exit ((← askLogin (.wait secrets.state config.loginTimeout)).mapError mapCallbackError)
      let code ← exit (callbackCode outcome)
      let response ← exit ((← askLogin (.exchangeCode code (redirectUri port) secrets.verifier)).mapError mapExchangeError)
      connect S response : LoginCall ConnectedAccount).run.Meets (.free (reportingGuar S config secrets)) (LoginEnds S) h := by
  refine meets_ask_bind.mpr ⟨⟨rfl, rfl, url, opened, hopened⟩, fun waited _ => ?_⟩
  have hnone' := hnone.snoc (r := .wait secrets.state config.loginTimeout) nofun waited
  refine meets_exit_bind.mpr ⟨fun _ _ => hnone', fun outcome houtcome => ?_⟩
  refine meets_exit_bind.mpr ⟨fun _ _ => hnone', fun code hcode => ?_⟩
  obtain rfl : waited = .ok (.code code) := by
    rw [of_mapError_ok houtcome]
    cases outcome <;> cases hcode
    rfl
  have hfirst' : Unexchanged (h ++ [⟨.wait secrets.state config.loginTimeout, .ok (.code code)⟩]) :=
    List.forall_mem_append.mpr ⟨hfirst, List.forall_mem_singleton.mpr nofun⟩
  refine meets_ask_bind.mpr ⟨⟨hfirst', List.mem_concat_self, rfl, port, hbound.append _, rfl⟩, fun exchanged _ => ?_⟩
  have hnone'' := hnone'.snoc (r := .exchangeCode code (redirectUri port) secrets.verifier) nofun exchanged
  refine meets_exit_bind.mpr ⟨fun _ _ => hnone'', fun response hresponse => ?_⟩
  obtain rfl : exchanged = .ok response := of_mapError_ok hresponse
  exact connect_meets List.mem_concat_self hnone''

theorem login_meets {macos : Bool} :
    (login S macos config secrets).run.Meets (.free (reportingGuar S config secrets)) (LoginEnds S) [] := by
  have hnil : Unstored [] := nofun
  refine meets_exit_bind.mpr ⟨fun _ _ => hnil, fun _ _ => ?_⟩
  refine meets_ask_bind.mpr ⟨⟨rfl, rfl⟩, fun bound _ => ?_⟩
  have hbind := hnil.snoc (r := .bind config.redirectPorts) nofun bound
  refine meets_exit_bind.mpr ⟨fun _ _ => hbind, fun port hport => ?_⟩
  obtain rfl : bound = .ok port := of_mapError_ok hport
  have hbound : PortBound config ([] ++ [⟨.bind config.redirectPorts, .ok port⟩]) port := ⟨[], rfl⟩
  refine meets_ask_bind.mpr ⟨⟨port, hbound⟩, fun _ _ => ?_⟩
  have hreport := hbind.snoc (r := .report .openingBrowser) nofun ()
  refine meets_ask_bind.mpr ⟨⟨port, hbound.append _, rfl⟩, fun _ _ => ?_⟩
  have hreport := hreport.snoc (r := .report (.authorizationUrl (urlText config secrets port))) nofun ()
  refine meets_ask_bind.mpr ⟨List.mem_concat_self, fun opened _ => ?_⟩
  have hopen := hreport.snoc (r := .openBrowser (urlText config secrets port)) nofun opened
  cases opened with
  | ok _ => exact opened_meets (((hbound.append _).append _).append _) List.mem_concat_self (by simp [Unexchanged]) hopen
  | error _ =>
    refine meets_ask_bind.mpr ⟨⟨_, List.mem_concat_self⟩, fun _ _ => ?_⟩
    have hreport := hopen.snoc (r := .report .browserLaunchFailed) nofun ()
    exact opened_meets ((((hbound.append _).append _).append _).append _)
      (List.mem_append_left _ List.mem_concat_self) (by simp [Unexchanged]) hreport

/-- A request of a login, with what was exchanged before it. -/
theorem reportingGuar_of_mem {macos : Bool} {tr : LoginHistory} {q} (hf : (login S macos config secrets).run.Follows tr q)
    {e : Event LoginAnswer} (he : e ∈ tr) : ∃ pre, pre <+: tr ∧ reportingGuar S config secrets pre e.1 := by
  obtain ⟨pre, post, rfl⟩ := List.append_of_mem he
  exact ⟨pre, List.prefix_append pre _, login_meets.guar_free hf⟩

theorem reportingGuar_url {macos : Bool} {tr : LoginHistory} {q} (hf : (login S macos config secrets).run.Follows tr q)
    {url : String} {opened : Except Unit Unit} (hopened : ⟨.openBrowser url, opened⟩ ∈ tr) :
    ⟨.report (.authorizationUrl url), ()⟩ ∈ tr ∧
      ∃ pre port, pre <+: tr ∧ PortBound config pre port ∧ url = urlText config secrets port := by
  obtain ⟨pre, hpre, hreported⟩ := reportingGuar_of_mem hf hopened
  have hreported := hpre.subset hreported
  obtain ⟨pre', hpre', port, hbound, hurl⟩ := reportingGuar_of_mem hf hreported
  exact ⟨hreported, pre', port, hpre', hbound, hurl⟩

end

/-- **A login is of one piece.** In every run of a login, up to any point, the
URL that is opened was reported before; what is waited for is the state that is
read in it, and a code is exchanged only when it was the answer, with a form
that a provider finds to fit that URL. What is stored is the record of a
credential that the response gave, and the login succeeds when it is stored. -/
theorem login_coherent {S : SerdeJson} {config : LoginConfig} (hquery : config.authorizationEndpoint.query = none)
    {stateBytes verifierBytes : Vector UInt8 32} {macos : Bool} {tr : LoginHistory} {q}
    (hf : (login S macos config (.generate stateBytes verifierBytes)).run.Follows tr q) {url : String}
    {opened : Except Unit Unit} (hopened : ⟨.openBrowser url, opened⟩ ∈ tr) :
    ⟨.report (.authorizationUrl url), ()⟩ ∈ tr ∧
      (∀ state timeout waited, ⟨.wait state timeout, waited⟩ ∈ tr → Form.values (Url.pairsOf url) "state" = [state]) ∧
      (∀ code uri verifier exchanged, ⟨.exchangeCode code uri verifier, exchanged⟩ ∈ tr →
        (∃ state timeout, ⟨.wait state timeout, .ok (.code code)⟩ ∈ tr) ∧ Form.values (Url.pairsOf url) "redirect_uri" = [uri] ∧
        Verifies (Url.pairsOf url) (Form.parse (utf8 (exchangeForm code uri verifier))) code) ∧
      (∀ record stored, ⟨.replace record, stored⟩ ∈ tr → ∃ credential, Validated S tr credential record) ∧
      ∀ x, q = .ret x → (x.isOk = true ↔ ∃ record, ⟨.replace record, .ok ()⟩ ∈ tr) := by
  obtain ⟨hreported, pre, port, hpre, hbound, rfl⟩ := reportingGuar_url hf hopened
  have hfits := fun code => exchange_verifies hquery stateBytes verifierBytes (redirectUri port) code
  rw [urlText, Url.pairsOf_text]
  refine ⟨hreported, fun state timeout waited hmem => ?_, fun code uri verifier exchanged hmem => ?_,
    fun record stored hmem => ?_, fun x hx => ?_⟩
  · obtain ⟨_, _, rfl, -, -⟩ := reportingGuar_of_mem hf hmem
    exact (hfits "").2.1
  · obtain ⟨pre', hpre', -, hwaited, rfl, port', hbound', rfl⟩ := reportingGuar_of_mem hf hmem
    obtain rfl := hbound.unique hbound' hpre hpre'
    exact ⟨⟨_, _, hpre'.subset hwaited⟩, (hfits code).2.2.1, (hfits code).2.2.2⟩
  · obtain ⟨pre', hpre', credential, code, uri, verifier, response, now, hresponse, hnow, hcredential, hrecord⟩ :=
      reportingGuar_of_mem hf hmem
    exact ⟨credential, code, uri, verifier, response, now, hpre'.subset hresponse, hpre'.subset hnow, hcredential, hrecord⟩
  · subst hx
    have hends := Program.meets_ret.mp (login_meets.follows_free hf)
    cases x with
    | error e => exact ⟨nofun, fun h => (hends h.choose h.choose_spec).elim⟩
    | ok account =>
      obtain ⟨_, record, -, hstored, -⟩ := hends
      exact ⟨fun _ => ⟨record, hstored⟩, fun _ => rfl⟩

def sampleSecrets : AuthSecrets := .generate zeroBytes zeroBytes

/-- A login whose code cannot be exchanged. -/
def unexchangedLogin : LoginHistory := [
  ⟨.bind [1455, 1457], .ok 1455⟩,
  ⟨.report .openingBrowser, ()⟩,
  ⟨.report (.authorizationUrl (urlText .production sampleSecrets 1455)), ()⟩,
  ⟨.openBrowser (urlText .production sampleSecrets 1455), .ok ()⟩,
  ⟨.wait sampleSecrets.state 300, .ok (.code "a c&")⟩,
  ⟨.exchangeCode "a c&" (redirectUri 1455) sampleSecrets.verifier, .error .unavailable⟩]

theorem unexchangedLogin_follows :
    (login serdeJson true .production sampleSecrets).run.Follows unexchangedLogin (.ret (.error .tokenExchangeUnavailable)) :=
  .cons (.cons (.cons (.cons (.cons (.cons .nil)))))

theorem login_coherent_sample : Verifies (Url.pairsOf (urlText .production sampleSecrets 1455))
    (Form.parse (utf8 (exchangeForm "a c&" (redirectUri 1455) sampleSecrets.verifier))) "a c&" := by
  have hopened : ⟨.openBrowser (urlText .production sampleSecrets 1455), .ok ()⟩ ∈ unexchangedLogin := by simp [unexchangedLogin]
  have hexchanged : ⟨.exchangeCode "a c&" (redirectUri 1455) sampleSecrets.verifier, .error .unavailable⟩ ∈ unexchangedLogin := by
    simp [unexchangedLogin]
  exact ((login_coherent rfl unexchangedLogin_follows hopened).2.2.1 _ _ _ _ hexchanged).2.2

/-- **Every run of a login is one of the call without reports**: what it has
asked for, its reports left out, is an execution of that call, and it returns
what that returns. -/
theorem login_refines {T E : Type} {S : SerdeJson} {config : LoginConfig} {secrets : AuthSecrets} {tr : LoginHistory} {q}
    (hf : (loginReporting S config secrets).run.Follows tr q) :
    ∃ q', (loginWith (T := T) (E := E) S).run.Follows (tr.filterMap eraseReports) q' ∧ ∀ x, q = .ret x → q' = .ret x := by
  obtain ⟨q', hf', hs⟩ := login_simulates.follows hf
  refine ⟨q', hf', fun x hx => ?_⟩
  subst hx
  exact hs.returned

theorem login_refines_sample : (loginWith (T := Unit) (E := Unit) serdeJson).run.Follows
    [⟨.bindCallback, .ok ()⟩, ⟨.openBrowser, .ok ()⟩, ⟨.waitCallback, .ok (.code "a c&")⟩,
      ⟨.exchangeCode "a c&", .error .unavailable⟩] (.ret (.error .tokenExchangeUnavailable)) := by
  obtain ⟨q', hf, hreturned⟩ := login_refines unexchangedLogin_follows
  exact hreturned _ rfl ▸ hf

end AgentHarness.Auth
