/-
A login as it goes over the wire: the exchange of its code is one POST to the
token endpoint, made once at most, with a form that a provider finds to fit the
URL that was opened. What is stored is the record of what the endpoint has
granted in a body that was read to its end and is within the limit
(`login_wire`).
-/
import AgentHarness.Auth.Login
import AgentHarness.Auth.Wire

namespace AgentHarness.Auth

open Text Except Interact

/-! ## One exchange -/

/-- The endpoint has granted these tokens, in a body that was read to its end and is within the limit. -/
def TokenGranted (S : SerdeJson) (exchange : ExchangeConfig) (h : HttpHistory) (response : TokenResponse) : Prop :=
  ∃ head, Answered h head ∧ head.isSuccess = true ∧ Ended h ∧ (received h).length ≤ exchange.responseBodyLimit ∧
    S.wireTokenResponse (received h) = some response

/-- A code that is rejected was rejected by the endpoint. -/
def ExchangeConcludes (S : SerdeJson) (exchange : ExchangeConfig) (h : HttpHistory) : Except ExchangeError TokenResponse → Prop
  | .ok response => TokenGranted S exchange h response
  | .error .rejected => ∃ head, Answered h head ∧ head.isSuccess = false
  | .error _ => True

/-- What is sent is the form of the code, and once. -/
def exchangeGuar (exchange : ExchangeConfig) (code uri verifier : String) (h : HttpHistory) : Http.Request → Prop
  | .post url contentType body => Unsent h ∧ url = exchange.tokenEndpoint ∧ contentType = "application/x-www-form-urlencoded" ∧
      body = utf8 (exchangeForm code uri verifier)
  | _ => True

/-- What is taken of a body from `h` on: all of it, unless it is as long as it may be. -/
def Taken (head : Http.ResponseHead) (limit : Nat) (h h' : HttpHistory) : Except ExchangeError Bytes → Prop
  | .ok body => Answered h' head ∧ received h' = received h ++ body ∧ (body.length < limit → Ended h')
  | .error e => e = .unavailable

section
variable {S : SerdeJson} {exchange : ExchangeConfig} {code uri verifier : String} {h : HttpHistory} {head : Http.ResponseHead}

theorem takeToEnd_meets {reads limit : Nat} (hreads : limit ≤ reads) (hanswered : Answered h head) :
    (Http.takeToEnd ExchangeError.unavailable reads limit).run.Meets (.free (exchangeGuar exchange code uri verifier))
      (Taken head limit h) h := by
  induction reads generalizing h limit with
  | zero => exact ⟨hanswered, (List.append_nil _).symm, fun hlt => absurd hlt (by omega)⟩
  | succ reads ih =>
    unfold Http.takeToEnd
    split
    · next hlimit => exact ⟨hanswered, (List.append_nil _).symm, fun hlt => absurd hlt (by omega)⟩
    · next hlimit =>
      refine meets_ask_bind.mpr ⟨trivial, fun read _ => ?_⟩
      cases read with
      | error _ => rfl
      | ok bytes =>
        have hread : received (h ++ [⟨.read limit, .ok bytes⟩]) = received h ++ bytes.val := received_snoc h _
        change Program.Meets _ _ _ (if bytes.val = [] then _ else _ : Http.Call ExchangeError Bytes).run
        split
        · next hnil =>
          exact ⟨hanswered.append _, by rw [hread, hnil], fun _ =>
            ⟨limit, bytes, List.mem_concat_self, Nat.pos_of_ne_zero hlimit, hnil⟩⟩
        · next hne =>
          have hlength : 0 < bytes.val.length := List.length_pos_iff.mpr hne
          have hleft : limit - bytes.val.length ≤ reads := by omega
          refine meets_bind (ih hleft (hanswered.append _)) (fun h' e he => he)
            fun h' more hmore => ?_
          refine ⟨hmore.1, by rw [hmore.2.1, hread, List.append_assoc], fun hlt => hmore.2.2 ?_⟩
          rw [List.length_append] at hlt
          omega

/-- **What an exchange returns is what it was told**, and it has sent the code
once at most. -/
theorem exchangeCode_meets :
    (exchangeCode S exchange code uri verifier).run.Meets (.free (exchangeGuar exchange code uri verifier))
      (ExchangeConcludes S exchange) [] := by
  have hnone : Unsent [] := nofun
  refine meets_ask_bind.mpr ⟨trivial, fun built _ => ?_⟩
  cases built with
  | error _ => trivial
  | ok _ =>
    have hunsent := hnone.snoc (r := .build exchange.connectTimeout exchange.requestTimeout) (.ok ()) nofun
    refine meets_ask_bind.mpr ⟨⟨hunsent, rfl, rfl, rfl⟩, fun sent _ => ?_⟩
    cases sent with
    | error _ => trivial
    | ok head =>
      have hanswered : Answered ([] ++ [⟨.build exchange.connectTimeout exchange.requestTimeout, .ok ()⟩] ++
          [⟨.post exchange.tokenEndpoint "application/x-www-form-urlencoded" (utf8 (exchangeForm code uri verifier)), .ok head⟩])
          head := ⟨_, _, _, List.mem_concat_self⟩
      refine meets_exit_bind.mpr ⟨fun e he => ?_, fun _ hsuccess => ?_⟩
      · obtain ⟨hstatus, rfl⟩ := rejectIf_error_iff.mp he
        unfold exchangeStatusError
        split
        · trivial
        · exact ⟨head, hanswered, by simpa using hstatus⟩
      have hsuccess' : head.isSuccess = true := by simpa using rejectIf_ok_iff.mp hsuccess
      refine meets_exit_bind.mpr ⟨fun e he => ?_, fun _ _ => ?_⟩
      · obtain ⟨-, rfl⟩ := rejectIf_error_iff.mp he
        trivial
      refine meets_bind (takeToEnd_meets (Nat.le_refl _) hanswered) (fun h e he => ?_) fun h body htaken => ?_
      · obtain rfl : e = .unavailable := he
        trivial
      obtain ⟨hanswered', hreceived, hended⟩ := htaken
      refine meets_exit_bind.mpr ⟨fun e he => ?_, fun _ hfits => ?_⟩
      · obtain ⟨-, rfl⟩ := rejectIf_error_iff.mp he
        trivial
      refine meets_exit.mpr ?_
      have hlength : body.length ≤ exchange.responseBodyLimit := Nat.not_lt.mp (of_decide_eq_false (rejectIf_ok_iff.mp hfits))
      cases hwire : S.wireTokenResponse body with
      | none => trivial
      | some response =>
        obtain rfl : received h = body := hreceived
        exact ⟨head, hanswered', hsuccess', hended (Nat.lt_succ_of_le hlength), hlength, hwire⟩

end

/-! ## Over the wire -/

/-- What a login asks for where its exchange goes over the wire. -/
inductive LoginWireRequest where
  | login (r : LoginRequest)
  | http (r : Http.Request)

def LoginWireAnswer : LoginWireRequest → Type
  | .login r => LoginAnswer r
  | .http r => Http.Answer r

abbrev LoginWireHistory := List (Event LoginWireAnswer)

/-- The exchange is the one with the endpoint; all else stands for itself. -/
def loginHandler (S : SerdeJson) (exchange : ExchangeConfig) : Program.Handler LoginAnswer LoginWireAnswer Unit
  | _, .exchangeCode code uri verifier =>
    (Program.lift LoginWireRequest.http (exchangeCode S exchange code uri verifier).run).bind fun x => .ret ((), x)
  | _, r => (Program.request (LoginWireRequest.login r)).bind fun a => .ret ((), a)

def loginOverWire (S : SerdeJson) (exchange : ExchangeConfig) (macos : Bool) (config : LoginConfig) (secrets : AuthSecrets) :
    Program LoginWireRequest LoginWireAnswer (Unit × Except LoginError ConnectedAccount) :=
  Program.interpret (loginHandler S exchange) () (login S macos config secrets).run

def viewExchange : Event LoginWireAnswer → Option (Event Http.Answer)
  | ⟨.http r, a⟩ => some ⟨r, a⟩
  | ⟨.login _, _⟩ => none

/-- What has gone over the wire. -/
def exchanged (h : LoginWireHistory) : HttpHistory := h.filterMap viewExchange

/-- The record is that of a credential that was granted. -/
def Stores (S : SerdeJson) (exchange : ExchangeConfig) (h : LoginWireHistory) (credential : CredentialRecord) (record : Bytes) : Prop :=
  ∃ response now, TokenGranted S exchange (exchanged h) response ∧ ⟨.login .unixSeconds, now⟩ ∈ h ∧
    CredentialRecord.validate S response now = .ok credential ∧ credential.serialize S = .ok record

/-- The form fits the URL that was opened, for the code that was answered to it. -/
def Fits (h : LoginWireHistory) (body : Bytes) : Prop :=
  ∃ url opened state timeout code, ⟨.login (.openBrowser url), opened⟩ ∈ h ∧ ⟨.login (.wait state timeout), .ok (.code code)⟩ ∈ h ∧
    Form.values (Url.pairsOf url) "state" = [state] ∧ Verifies (Url.pairsOf url) (Form.parse body) code

/-- What goes over the wire is the form of a code, once; what is stored is
what was granted for it. -/
def loginWireGuar (S : SerdeJson) (exchange : ExchangeConfig) (h : LoginWireHistory) : LoginWireRequest → Prop
  | .http (.post url contentType body) => Unsent (exchanged h) ∧ url = exchange.tokenEndpoint ∧
      contentType = "application/x-www-form-urlencoded" ∧ Fits h body
  | .login (.replace record) => ∃ credential, Stores S exchange h credential record
  | _ => True

/-- A login gives the account of what was granted when its record was stored, and else an error. -/
def LoginWireEnds (S : SerdeJson) (exchange : ExchangeConfig) (h : LoginWireHistory) : Except LoginError ConnectedAccount → Prop
  | .ok account => ∃ credential record, Stores S exchange h credential record ∧ ⟨.login (.replace record), .ok ()⟩ ∈ h ∧
      account = { email := credential.email, plan := credential.plan }
  | .error _ => ∀ record, ⟨.login (.replace record), .ok ()⟩ ∉ h

/-- The history of a login, and what it is over the wire. -/
structure LoginCarried (S : SerdeJson) (exchange : ExchangeConfig) (h : LoginHistory) (h' : LoginWireHistory) : Prop where
  asked : ∀ r a, (∀ code uri verifier, r ≠ .exchangeCode code uri verifier) → (⟨r, a⟩ ∈ h ↔ ⟨.login r, a⟩ ∈ h')
  idle : Unexchanged h → exchanged h' = []
  concluded : ∀ code uri verifier x, ⟨.exchangeCode code uri verifier, x⟩ ∈ h → ExchangeConcludes S exchange (exchanged h') x

section
variable {S : SerdeJson} {exchange : ExchangeConfig} {config : LoginConfig} {secrets : AuthSecrets} {macos : Bool}
  {h : LoginHistory} {h' : LoginWireHistory}

@[simp] theorem exchanged_login (h' : LoginWireHistory) (r : LoginRequest) (a : LoginAnswer r) :
    exchanged (h' ++ [⟨.login r, a⟩]) = exchanged h' := by
  simp [exchanged, viewExchange]

namespace LoginCarried

theorem login (hc : LoginCarried S exchange h h') {r : LoginRequest} (hr : ∀ code uri verifier, r ≠ .exchangeCode code uri verifier)
    (a : LoginAnswer r) : LoginCarried S exchange (h ++ [⟨r, a⟩]) (h' ++ [⟨.login r, a⟩]) := by
  refine ⟨fun r' a' hr' => ?_, fun hnone => ?_, fun code uri verifier x hmem => ?_⟩
  · rw [List.mem_append, List.mem_append, hc.asked r' a' hr', List.mem_singleton, List.mem_singleton]
    refine or_congr_right ⟨fun heq => ?_, fun heq => ?_⟩
    · cases heq
      rfl
    · cases heq
      rfl
  · rw [exchanged_login]
    exact hc.idle fun e he => hnone e (List.mem_append_left _ he)
  · rw [exchanged_login]
    rcases List.mem_append.mp hmem with hmem | hmem
    · exact hc.concluded code uri verifier x hmem
    · cases List.mem_singleton.mp hmem
      exact absurd rfl (hr code uri verifier)

/-- What has gone over the wire is one exchange. -/
theorem posted (hc : LoginCarried S exchange h h') (hnone : Unexchanged h) {more : LoginWireHistory}
    (hmore : ∀ r a, ⟨.login r, a⟩ ∉ more) {code uri verifier : String} {x : Except ExchangeError TokenResponse}
    (hx : ExchangeConcludes S exchange (exchanged (h' ++ more)) x) :
    LoginCarried S exchange (h ++ [⟨.exchangeCode code uri verifier, x⟩]) (h' ++ more) := by
  refine ⟨fun r a hr => ?_, fun hall => ?_, fun code' uri' verifier' x' hmem => ?_⟩
  · rw [List.mem_append, List.mem_append, hc.asked r a hr, or_iff_left (hmore r a)]
    refine or_iff_left fun hmem => ?_
    cases List.mem_singleton.mp hmem
    exact hr code uri verifier rfl
  · exact absurd rfl (hall _ List.mem_concat_self code uri verifier)
  · rcases List.mem_append.mp hmem with hmem | hmem
    · exact absurd rfl (hnone _ hmem code' uri' verifier')
    · cases List.mem_singleton.mp hmem
      exact hx

theorem stores (hc : LoginCarried S exchange h h') {credential : CredentialRecord} {record : Bytes}
    (hvalid : Validated S h credential record) : Stores S exchange h' credential record := by
  obtain ⟨code, uri, verifier, response, now, hresponse, hnow, hcredential, hrecord⟩ := hvalid
  exact ⟨response, now, hc.concluded code uri verifier _ hresponse, (hc.asked .unixSeconds now nofun).mp hnow, hcredential, hrecord⟩

theorem ends (hc : LoginCarried S exchange h h') {x : Except LoginError ConnectedAccount} (hx : LoginEnds S h x) :
    LoginWireEnds S exchange h' x := by
  cases x with
  | ok account =>
    obtain ⟨credential, record, hvalid, hstored, rfl⟩ := hx
    exact ⟨credential, record, hc.stores hvalid, (hc.asked (.replace record) (.ok ()) nofun).mp hstored, rfl⟩
  | error e => exact fun record hstored => hx record ((hc.asked (.replace record) (.ok ()) nofun).mpr hstored)

end LoginCarried

/-- The form of a code fits the URL that was opened. -/
theorem login_fits (hquery : config.authorizationEndpoint.query = none) {stateBytes verifierBytes : Vector UInt8 32} {q}
    (hf : (login S macos config (.generate stateBytes verifierBytes)).run.Follows h q) {code uri verifier : String}
    (hguar : reportingGuar S config (.generate stateBytes verifierBytes) h (.exchangeCode code uri verifier)) :
    ∃ url opened state timeout, ⟨.openBrowser url, opened⟩ ∈ h ∧ ⟨.wait state timeout, .ok (.code code)⟩ ∈ h ∧
      Form.values (Url.pairsOf url) "state" = [state] ∧
      Verifies (Url.pairsOf url) (Form.parse (utf8 (exchangeForm code uri verifier))) code := by
  obtain ⟨-, hwaited, rfl, port, hbound, rfl⟩ := hguar
  obtain ⟨pre, hpre, -, -, url, opened, hopened⟩ := reportingGuar_of_mem hf hwaited
  have hopened' := hpre.subset hopened
  obtain ⟨-, pre', port', hpre', hbound', rfl⟩ := reportingGuar_url hf hopened'
  obtain rfl := hbound.unique hbound' (List.prefix_refl h) hpre'
  have hverifies := exchange_verifies hquery stateBytes verifierBytes (redirectUri port) code
  refine ⟨_, opened, _, _, hopened', hwaited, ?_, ?_⟩ <;> rw [urlText, Url.pairsOf_text]
  · exact hverifies.2.1
  · exact hverifies.2.2.2

/-- What is said of a request of a login, from its history. -/
def LoginGuar (S : SerdeJson) (config : LoginConfig) (secrets : AuthSecrets) (macos : Bool) (h : LoginHistory) (r : LoginRequest) : Prop :=
  reportingGuar S config secrets h r ∧ ∃ k, (login S macos config secrets).run.Follows h (.ask r k)

theorem loginHandler_meets (hquery : config.authorizationEndpoint.query = none) {stateBytes verifierBytes : Vector UInt8 32}
    (hc : LoginCarried S exchange h h') {r : LoginRequest} (hguar : LoginGuar S config (.generate stateBytes verifierBytes) macos h r) :
    (loginHandler S exchange () r).Meets (.free (loginWireGuar S exchange)) (fun h'' x => LoginCarried S exchange (h ++ [⟨r, x.2⟩]) h'') h' := by
  obtain ⟨hguar, k, hf⟩ := hguar
  by_cases hr : ∃ code uri verifier, r = .exchangeCode code uri verifier
  · obtain ⟨code, uri, verifier, rfl⟩ := hr
    obtain ⟨url, opened, state, timeout, hopened, hwaited, hstate, hverifies⟩ := login_fits hquery hf hguar
    have hnone : Unexchanged h := hguar.1
    have hidle : h'.filterMap viewExchange = [] := hc.idle hnone
    have hexchange : (exchangeCode S exchange code uri verifier).run.Meets (.free (exchangeGuar exchange code uri verifier))
        (ExchangeConcludes S exchange) (h'.filterMap viewExchange) := by
      rw [hidle]
      exact exchangeCode_meets
    have hview : ∀ r a, viewExchange ⟨.http r, a⟩ = some ⟨r, a⟩ := fun _ _ => rfl
    refine (Program.Meets.lift (J := fun h'' => ∃ more, h'' = h' ++ more ∧ ∀ r a, ⟨.login r, a⟩ ∉ more) hview hexchange
      ⟨[], (List.append_nil h').symm, nofun⟩ ?_).bind ?_
    · rintro _ r ⟨more, rfl, hmore⟩ hr
      refine ⟨?_, fun a => ⟨more ++ [⟨.http r, a⟩], List.append_assoc _ _ _, fun r' a' hmem => ?_⟩⟩
      · cases r with
        | post url' contentType body =>
          obtain ⟨hunsent, hurl, hcontent, hbody⟩ := hr
          rw [← hbody] at hverifies
          refine ⟨hunsent, hurl, hcontent, url, opened, state, timeout, code, ?_, ?_, hstate, hverifies⟩
          · exact List.mem_append_left _ ((hc.asked (.openBrowser url) opened nofun).mp hopened)
          · exact List.mem_append_left _ ((hc.asked (.wait state timeout) (.ok (.code code)) nofun).mp hwaited)
        | build _ _ | elapsed | read _ => trivial
      · rcases List.mem_append.mp hmem with hmem | hmem
        · exact hmore r' a' hmem
        · cases List.mem_singleton.mp hmem
    · rintro _ x ⟨⟨more, rfl, hmore⟩, hx⟩
      exact hc.posted hnone hmore hx
  · have hother : loginHandler S exchange () r = (Program.request (LoginWireRequest.login r)).bind fun a => .ret ((), a) := by
      cases r <;> first | rfl | exact absurd ⟨_, _, _, rfl⟩ hr
    rw [hother]
    refine ⟨?_, fun a _ => hc.login (fun code uri verifier heq => hr ⟨code, uri, verifier, heq⟩) a⟩
    cases r with
    | replace record =>
      obtain ⟨credential, hvalid⟩ := hguar
      exact ⟨credential, hc.stores hvalid⟩
    | _ => trivial

end

/-- **A login over the wire.** In every run of a login, up to any point and
whatever it is answered: what goes over the wire is one POST at most, to the
token endpoint, with the code that was answered to the URL that was opened and
a form that a provider finds to fit that URL. What is stored is the record of
what the endpoint has granted in a body that was read to its end and is within
the limit; and the login gives its account when it is stored, and else an error. -/
theorem login_wire {S : SerdeJson} {exchange : ExchangeConfig} {config : LoginConfig} {macos : Bool}
    (hquery : config.authorizationEndpoint.query = none) {stateBytes verifierBytes : Vector UInt8 32} {tr : LoginWireHistory} {q}
    (hf : (loginOverWire S exchange macos config (.generate stateBytes verifierBytes)).Follows tr q) :
    (∀ pre e post, tr = pre ++ e :: post → loginWireGuar S exchange pre e.1) ∧
      ∀ x, q = .ret ((), x) → LoginWireEnds S exchange tr x := by
  have hcarried : LoginCarried S exchange [] [] := ⟨by simp, fun _ => rfl, nofun⟩
  have hlogin := Program.Meets.and_free login_meets (login S macos config (.generate stateBytes verifierBytes)).run.meets_follows
  have hmeets : (loginOverWire S exchange macos config (.generate stateBytes verifierBytes)).Meets
      (.free (loginWireGuar S exchange)) (fun h' x => LoginWireEnds S exchange h' x.2) [] := by
    refine (Program.Meets.interpret (I := fun h h' _ => LoginCarried S exchange h h') (fun h h' _ r hc hguar => ?_)
      hlogin hcarried).mono ?_
    · exact (loginHandler_meets hquery hc hguar).mono fun h'' x hx => ⟨trivial, hx⟩
    · rintro h' x ⟨h, hc, hends, -⟩
      exact hc.ends hends
  refine ⟨fun pre e post he => ?_, fun x hx => ?_⟩
  · subst he
    exact hmeets.guar_free hf
  · subst hx
    exact hmeets.follows_free hf

/-! ## A code that is granted -/

/-- A body that is taken in one read, and the read that finds its end. -/
def takenAtOnce (limit : Nat) (body : { bytes : Bytes // bytes.length ≤ limit }) : HttpHistory :=
  [⟨.read limit, .ok body⟩, ⟨.read (limit - body.val.length), .ok ⟨[], Nat.zero_le _⟩⟩]

theorem takeToEnd_follows {ε : Type} {failed : ε} {reads limit : Nat} {body : { bytes : Bytes // bytes.length ≤ limit }}
    (hreads : 2 ≤ reads) (hne : body.val ≠ []) (hfits : body.val.length < limit) :
    (Http.takeToEnd failed reads limit).run.Follows (takenAtOnce limit body) (.ret (.ok body.val)) := by
  obtain ⟨reads, rfl⟩ := Nat.exists_eq_add_of_le' hreads
  have hend : (Http.takeToEnd failed (reads + 1) (limit - body.val.length)).run.Follows
      [⟨.read (limit - body.val.length), .ok ⟨[], Nat.zero_le _⟩⟩] (.ret (.ok [])) := by
    unfold Http.takeToEnd
    rw [if_neg (by omega)]
    exact read_bind_follows .nil
  unfold Http.takeToEnd
  rw [if_neg (by omega)]
  refine read_bind_follows ?_
  rw [if_neg hne]
  have hmore := follows_bind (f := fun more => (pure (body.val ++ more) : Http.Call ε Bytes)) hend .nil
  rw [List.append_nil body.val] at hmore
  exact hmore

/-- The exchange of a code that is granted. -/
def codeExchange (exchange : ExchangeConfig) (code uri verifier : String)
    (body : { bytes : Bytes // bytes.length ≤ exchange.responseBodyLimit + 1 }) : HttpHistory :=
  [⟨.build exchange.connectTimeout exchange.requestTimeout, .ok ()⟩] ++
    ([⟨.post exchange.tokenEndpoint "application/x-www-form-urlencoded" (utf8 (exchangeForm code uri verifier)), .ok ⟨200, none⟩⟩] ++
      (takenAtOnce (exchange.responseBodyLimit + 1) body ++ []))

theorem codeExchange_follows {S : SerdeJson} {exchange : ExchangeConfig} (code uri verifier : String) {response : TokenResponse}
    {body : { bytes : Bytes // bytes.length ≤ exchange.responseBodyLimit + 1 }} (hne : body.val ≠ [])
    (hfits : body.val.length ≤ exchange.responseBodyLimit) (hwire : S.wireTokenResponse body.val = some response) :
    (exchangeCode S exchange code uri verifier).run.Follows (codeExchange exchange code uri verifier body) (.ret (.ok response)) := by
  have hpositive : 0 < body.val.length := List.length_pos_iff.mpr hne
  have hlimit : rejectIf (decide (body.val.length > exchange.responseBodyLimit)) ExchangeError.responseTooLarge = .ok () := by
    rw [decide_eq_false (Nat.not_lt.mpr hfits), rejectIf_false]
  have hbuild : (Http.buildClient ExchangeError.unavailable exchange.connectTimeout exchange.requestTimeout).run.Follows
      [⟨.build _ _, .ok ()⟩] (.ret (.ok ())) := .cons .nil
  have hpost : (Http.post ExchangeError.unavailable exchange.tokenEndpoint "application/x-www-form-urlencoded"
      (utf8 (exchangeForm code uri verifier))).run.Follows [⟨.post _ _ _, .ok ⟨200, none⟩⟩] (.ret (.ok ⟨200, none⟩)) := .cons .nil
  refine follows_bind hbuild (follows_bind hpost (follows_exit_bind rfl (follows_exit_bind rfl ?_)))
  refine follows_bind (takeToEnd_follows (by omega) hne (Nat.lt_succ_of_le hfits)) (follows_exit_bind hlimit ?_)
  rw [hwire]
  exact .nil

theorem connect_follows {S : SerdeJson} {response : TokenResponse} {now : UInt64} {credential : CredentialRecord} {record : Bytes}
    (hcredential : CredentialRecord.validate S response now = .ok credential) (hrecord : credential.serialize S = .ok record) :
    (connect S response).run.Follows [⟨.unixSeconds, now⟩, ⟨.replace record, .ok ()⟩]
      (.ret (.ok { email := credential.email, plan := credential.plan })) := by
  have hcredential' : (CredentialRecord.validate S response now).mapError (fun _ => LoginError.tokenResponseMalformed) =
      .ok credential := by rw [hcredential]; rfl
  have hrecord' : (credential.serialize S).mapError (fun _ => LoginError.tokenResponseMalformed) = .ok record := by rw [hrecord]; rfl
  exact follows_ask_bind (follows_exit_bind hcredential' (follows_exit_bind hrecord' (follows_ask_bind .nil)))

def tokenBody : Bytes :=
  Json.render (Json.ofFields tokenFields [.str sampleLogin.accessToken, .str sampleLogin.refreshToken, .str sampleLogin.idToken,
    .num (.posInt 3600)])

theorem tokenBody_fits : tokenBody.length ≤ ExchangeConfig.production.responseBodyLimit := by decide +kernel

/-- Tokens that are granted for a code. -/
def tokenExchange : HttpHistory :=
  codeExchange .production "a c&" (redirectUri 1455) sampleSecrets.verifier ⟨tokenBody, Nat.le_succ_of_le tokenBody_fits⟩

theorem tokenExchange_follows : (exchangeCode serdeJson .production "a c&" (redirectUri 1455) sampleSecrets.verifier).run.Follows
    tokenExchange (.ret (.ok sampleLogin)) := by
  have hwire : serdeJson.wireTokenResponse tokenBody = some sampleLogin := by decide +kernel
  have hne : tokenBody ≠ [] := by decide +kernel
  exact codeExchange_follows _ _ _ hne tokenBody_fits hwire

/-- A login whose credential is stored. -/
def storedLogin : LoginHistory :=
  ⟨.bind [1455, 1457], .ok 1455⟩ :: ⟨.report .openingBrowser, ()⟩ ::
    ⟨.report (.authorizationUrl (urlText .production sampleSecrets 1455)), ()⟩ ::
    ⟨.openBrowser (urlText .production sampleSecrets 1455), .ok ()⟩ :: ⟨.wait sampleSecrets.state 300, .ok (.code "a c&")⟩ ::
    ⟨.exchangeCode "a c&" (redirectUri 1455) sampleSecrets.verifier, .ok sampleLogin⟩ ::
    [⟨.unixSeconds, (1000 : UInt64)⟩, ⟨.replace (Json.render sampleLoggedIn.toJson), .ok ()⟩]

theorem storedLogin_follows : (login serdeJson true .production sampleSecrets).run.Follows storedLogin
    (.ret (.ok { email := none, plan := none })) :=
  .cons (.cons (.cons (.cons (.cons (.cons (connect_follows sample_validate rfl))))))

/-- The same login, over the wire. -/
def storedOverWire : LoginWireHistory :=
  [⟨.login (.bind [1455, 1457]), .ok 1455⟩] ++ ([⟨.login (.report .openingBrowser), ()⟩] ++
    ([⟨.login (.report (.authorizationUrl (urlText .production sampleSecrets 1455))), ()⟩] ++
      ([⟨.login (.openBrowser (urlText .production sampleSecrets 1455)), .ok ()⟩] ++
        ([⟨.login (.wait sampleSecrets.state 300), .ok (.code "a c&")⟩] ++
          (tokenExchange.map (fun e => ⟨.http e.1, e.2⟩) ++ ([⟨.login .unixSeconds, (1000 : UInt64)⟩] ++
            ([⟨.login (.replace (Json.render sampleLoggedIn.toJson)), .ok ()⟩] ++ [])))))))

theorem storedOverWire_follows : (loginOverWire serdeJson .production true .production sampleSecrets).Follows storedOverWire
    (.ret ((), .ok { email := none, plan := none })) := by
  have hexchange : (loginHandler serdeJson .production () (.exchangeCode "a c&" (redirectUri 1455) sampleSecrets.verifier)).Follows
      (tokenExchange.map fun e => ⟨.http e.1, e.2⟩) (.ret ((), .ok sampleLogin)) := by
    have hlift : (Program.lift LoginWireRequest.http
        (exchangeCode serdeJson .production "a c&" (redirectUri 1455) sampleSecrets.verifier).run :
          Program LoginWireRequest LoginWireAnswer _).Follows _ _ := Program.Follows.lift tokenExchange_follows
    exact hlift.bind_ret
  exact storedLogin_follows.interpret (.cons (.cons .nil) (.cons (.cons .nil) (.cons (.cons .nil) (.cons (.cons .nil)
    (.cons (.cons .nil) (.cons hexchange (.cons (.cons .nil) (.cons (.cons .nil) .nil))))))))

theorem login_wire_sample :
    Fits (storedOverWire.take 6) (utf8 (exchangeForm "a c&" (redirectUri 1455) sampleSecrets.verifier)) ∧
      LoginWireEnds serdeJson .production storedOverWire (.ok { email := none, plan := none }) := by
  obtain ⟨hguar, hends⟩ := login_wire rfl storedOverWire_follows
  exact ⟨(hguar (storedOverWire.take 6) ⟨.http (.post _ _ _), .ok ⟨200, none⟩⟩ _ rfl).2.2.2, hends _ rfl⟩

end AgentHarness.Auth
