/-
The token endpoint (`oauth.rs`, `refresh.rs`): the code of a login is
exchanged, and a refresh token spent, with one POST each. What comes of
either is told by the response alone, in whatever pieces its body comes in,
and where something fails on the way the endpoint is unavailable
(`exchangeCode_verdict`, `requestRefresh_verdict`). The bodies are read by the
JSON library, of whose readers nothing is assumed.
-/
import AgentHarness.Auth.Authorize
import AgentHarness.Auth.Calls
import AgentHarness.Auth.Serde
import AgentHarness.Lib.Http

namespace AgentHarness.Auth

open Text Except Interact

def tokenEndpoint : String := "https://auth.openai.com/oauth/token"
def tokenResponseLimit : Nat := 64 * 1024
def nanosPerSecond : Nat := 1000000000

/-- `response.content_length().is_some_and(..)` -/
def declaredOver (limit : Nat) (head : Http.ResponseHead) : Bool := head.contentLength.any fun length => length.toNat > limit

/-! ## Exchanging a code -/

structure ExchangeConfig where
  tokenEndpoint : String
  connectTimeout : Nat
  requestTimeout : Nat
  responseBodyLimit : Nat

def ExchangeConfig.production : ExchangeConfig where
  tokenEndpoint := AgentHarness.Auth.tokenEndpoint
  connectTimeout := 10 * nanosPerSecond
  requestTimeout := 30 * nanosPerSecond
  responseBodyLimit := tokenResponseLimit

/-- What a status that is no success says of the endpoint. -/
def exchangeStatusError (head : Http.ResponseHead) : ExchangeError :=
  if head.status = 408 || head.status = 429 || head.isServerError then .unavailable else .rejected

def exchangeCode (S : SerdeJson) (config : ExchangeConfig) (code redirectUri verifier : String) : Http.Call ExchangeError TokenResponse := do
  Http.buildClient .unavailable config.connectTimeout config.requestTimeout
  let response ← Http.post .unavailable config.tokenEndpoint "application/x-www-form-urlencoded"
    (utf8 (exchangeForm code redirectUri verifier))
  exit (rejectIf (!response.isSuccess) (exchangeStatusError response))
  exit (rejectIf (declaredOver config.responseBodyLimit response) .responseTooLarge)
  let body ← Http.takeToEnd .unavailable (config.responseBodyLimit + 1) (config.responseBodyLimit + 1)
  exit (rejectIf (body.length > config.responseBodyLimit) .responseTooLarge)
  exit (okOr (S.wireTokenResponse body) .malformedResponse)

/-! ## Spending a refresh token -/

structure RefreshConfig where
  endpoint : String
  connectTimeout : Nat
  requestTimeout : Nat
  elapsedBudget : Nat
  responseBodyLimit : Nat

def RefreshConfig.production : RefreshConfig where
  endpoint := tokenEndpoint
  connectTimeout := 10 * nanosPerSecond
  requestTimeout := 30 * nanosPerSecond
  elapsedBudget := 30 * nanosPerSecond
  responseBodyLimit := tokenResponseLimit

def refreshRequestFields : List String := ["grant_type", "refresh_token", "client_id"]

/-- `RefreshRequest` -/
def refreshRequest (refreshToken : String) : Json :=
  Json.ofFields refreshRequestFields [.str "refresh_token", .str refreshToken, .str clientId]

def toAsciiLowercase (text : String) : String := String.ofList (text.toList.map Char.toLower)

/-- The code of an error body, where any of three providers' shapes has it. -/
def errorCode (body : Json) : Option String :=
  match body.get "error" with
  | some (.obj members) => ((Json.obj members).get "code").bind Json.asStr
  | some (.str code) => some code
  | _ => (body.get "code").bind Json.asStr

def permanentErrorCode (S : SerdeJson) (body : Bytes) : Bool :=
  (((S.valueFromSlice body).bind Json.asObject).bind errorCode).any fun code =>
    ["refresh_token_expired", "refresh_token_reused", "refresh_token_invalidated"].contains (toAsciiLowercase code)

def checkBudget (config : RefreshConfig) : Http.Call RefreshError Unit := do
  exit (rejectIf ((← Http.elapsed) ≥ config.elapsedBudget) .unavailable)

def bufferSize : Nat := 8 * 1024

/-- The loop of `read_bounded`. A read that is no end has a byte, and is the
last where the body has got past the limit, so `limit + 1` reads are enough. -/
def readLoop (config : RefreshConfig) : (reads : Nat) → Bytes → Http.Call RefreshError Bytes
  | 0, _ => exit (.error .unavailable)
  | reads + 1, body => do
    checkBudget config
    let bytes ← Http.read .unavailable bufferSize
    checkBudget config
    if bytes = [] then return body
    else
      exit (rejectIf (body.length + bytes.length > config.responseBodyLimit) .unavailable)
      readLoop config reads (body ++ bytes)

def readBounded (config : RefreshConfig) (response : Http.ResponseHead) : Http.Call RefreshError Bytes := do
  exit (rejectIf (declaredOver config.responseBodyLimit response) .unavailable)
  readLoop config (config.responseBodyLimit + 1) []

/-- What a body that is no success says of the refresh token. -/
def refreshBodyError (S : SerdeJson) (body : Bytes) : RefreshError := if permanentErrorCode S body then .reauthenticationRequired else .unavailable

def requestRefresh (S : SerdeJson) (config : RefreshConfig) (refreshToken : String) : Http.Call RefreshError RefreshResponse := do
  Http.buildClient .unavailable config.connectTimeout config.requestTimeout
  checkBudget config
  let response ← Http.post .unavailable config.endpoint "application/json" (Json.render (refreshRequest refreshToken))
  checkBudget config
  exit (rejectIf (response.status = 401) .reauthenticationRequired)
  let body ← readBounded config response
  exit (rejectIf (!response.isSuccess) (refreshBodyError S body))
  exit (okOr (S.wireRefreshResponse body) .unavailable)

/-! ## What a response comes to -/

/-- The body is over the limit, or is said to be. -/
def overLimit (limit : Nat) (head : Http.ResponseHead) (body : Bytes) : Bool := declaredOver limit head || body.length > limit

/-- What a response to a code comes to. -/
def exchangeVerdict (S : SerdeJson) (limit : Nat) (head : Http.ResponseHead) (body : Bytes) : Except ExchangeError TokenResponse :=
  if !head.isSuccess then .error (exchangeStatusError head)
  else if overLimit limit head body then .error .responseTooLarge
  else okOr (S.wireTokenResponse body) .malformedResponse

/-- What a response to a refresh token comes to. -/
def refreshVerdict (S : SerdeJson) (limit : Nat) (head : Http.ResponseHead) (body : Bytes) : Except RefreshError RefreshResponse :=
  if head.status = 401 then .error .reauthenticationRequired
  else if overLimit limit head body then .error .unavailable
  else if head.isSuccess then okOr (S.wireRefreshResponse body) .unavailable
  else .error (refreshBodyError S body)

section
variable {S : SerdeJson} {faulty : Prop} {budget : Nat} {head : Http.ResponseHead} {body : Bytes}

theorem alone_rejectIf_bind {ε α : Type} {Q : Bytes → Except ε α → Prop} {c : Bool} {e : ε} {f : Unit → Http.Call ε α}
    {rest : Bytes} (hreject : c = true → Q rest (.error e))
    (hf : c = false → Alone (Http.Serves faulty budget head) () Q rest (f ()).run) :
    Alone (Http.Serves faulty budget head) () Q rest (exit (rejectIf c e) >>= f).run := by
  cases c with
  | true => exact hreject rfl
  | false => exact hf rfl

/-- **A code's exchange comes to what its response does**, in whatever pieces
it comes in, and to an endpoint that is unavailable only where that is what
the response says or something has failed. No more is read than is looked at. -/
theorem exchangeCode_verdict (S : SerdeJson) (config : ExchangeConfig) (code redirectUri verifier : String) :
    Alone (Http.Serves faulty budget head) () (fun rest x => body.length ≤ rest.length + (config.responseBodyLimit + 1) ∧
      (x = exchangeVerdict S config.responseBodyLimit head body ∨ (faulty ∧ x = .error .unavailable))) body
      (exchangeCode S config code redirectUri verifier).run := by
  refine Http.alone_buildClient_bind (fun hfaulty => ⟨Nat.le_add_right _ _, .inr ⟨hfaulty, rfl⟩⟩) ?_
  refine Http.alone_post_bind (fun hfaulty => ⟨Nat.le_add_right _ _, .inr ⟨hfaulty, rfl⟩⟩) ?_
  refine alone_rejectIf_bind (fun hstatus => ⟨Nat.le_add_right _ _, .inl ?_⟩) fun hstatus => ?_
  · rw [exchangeVerdict, if_pos hstatus]
  refine alone_rejectIf_bind (fun hdeclared => ⟨Nat.le_add_right _ _, .inl ?_⟩) fun hdeclared => ?_
  · simp [exchangeVerdict, hstatus, overLimit, hdeclared]
  refine alone_bind (Http.alone_takeToEnd (Nat.le_refl _)) (fun rest e he => ?_) fun rest taken htaken => ?_
  · obtain ⟨hread, hok | ⟨hfaulty, herror⟩⟩ := he
    · cases hok
    · cases herror
      exact ⟨hread, .inr ⟨hfaulty, rfl⟩⟩
  · obtain ⟨hread, hok | ⟨-, herror⟩⟩ := htaken
    · obtain rfl := Except.ok.inj hok
      have hover : (body.take (config.responseBodyLimit + 1)).length > config.responseBodyLimit ↔
          body.length > config.responseBodyLimit := by
        rw [List.length_take]
        omega
      refine alone_rejectIf_bind (fun hlong => ⟨hread, .inl ?_⟩) fun hshort => ?_
      · simp [exchangeVerdict, hstatus, overLimit, hover.mp (of_decide_eq_true hlong)]
      · have hfits : ¬body.length > config.responseBodyLimit := fun h => of_decide_eq_false hshort (hover.mpr h)
        refine ⟨hread, .inl ?_⟩
        rw [List.take_of_length_le (by omega)]
        simp [exchangeVerdict, hstatus, overLimit, hdeclared, hfits]
    · cases herror

variable {config : RefreshConfig}

theorem alone_checkBudget_bind {α : Type} {Q : Bytes → Except RefreshError α → Prop} {f : Unit → Http.Call RefreshError α}
    {rest : Bytes} (hbudget : 0 < config.elapsedBudget) (hlate : faulty → Q rest (.error .unavailable))
    (hf : Alone (Http.Serves faulty config.elapsedBudget head) () Q rest (f ()).run) :
    Alone (Http.Serves faulty config.elapsedBudget head) () Q rest (checkBudget config >>= f).run := by
  refine Http.alone_elapsed_bind hbudget fun time htime => alone_rejectIf_bind (fun hover => ?_) fun _ => hf
  have hlate' : ¬time < config.elapsedBudget := Nat.not_lt.mpr (of_decide_eq_true hover)
  exact hlate (htime.resolve_left hlate')

/-- A body that is read whole, if it is within the limit. -/
def withinLimit (limit : Nat) (body : Bytes) : Except RefreshError Bytes :=
  if body.length > limit then .error .unavailable else .ok body

theorem alone_readLoop (hbudget : 0 < config.elapsedBudget) {reads : Nat} {front rest : Bytes}
    (hfront : front.length ≤ config.responseBodyLimit) (hreads : config.responseBodyLimit < reads + front.length) :
    Alone (Http.Serves faulty config.elapsedBudget head) () (fun rest' x =>
      front.length + rest.length ≤ rest'.length + (config.responseBodyLimit + bufferSize) ∧
        (x = withinLimit config.responseBodyLimit (front ++ rest) ∨ (faulty ∧ x = .error .unavailable))) rest
      (readLoop config reads front).run := by
  induction reads generalizing front rest with
  | zero => omega
  | succ reads ih =>
    have hread : front.length + rest.length ≤ rest.length + (config.responseBodyLimit + bufferSize) := by omega
    refine alone_checkBudget_bind hbudget (fun hfaulty => ⟨hread, .inr ⟨hfaulty, rfl⟩⟩) ?_
    refine Http.alone_read_bind (fun hfaulty => ⟨hread, .inr ⟨hfaulty, rfl⟩⟩) fun bytes rest' hrest hsize hend => ?_
    have htotal : rest.length = bytes.length + rest'.length := by rw [hrest, List.length_append]
    have hread' : front.length + rest.length ≤ rest'.length + (config.responseBodyLimit + bufferSize) := by omega
    refine alone_checkBudget_bind hbudget (fun hfaulty => ⟨hread', .inr ⟨hfaulty, rfl⟩⟩) ?_
    split
    · next hnil =>
      obtain rfl : rest = [] := (hend hnil).resolve_right (by decide)
      refine ⟨hread', .inl ?_⟩
      rw [withinLimit, List.append_nil, if_neg (Nat.not_lt.mpr hfront)]
    · next hne =>
      have hlength : 0 < bytes.length := List.length_pos_iff.mpr hne
      refine alone_rejectIf_bind (fun hover => ⟨hread', .inl ?_⟩) fun hfits => ?_
      · have hover' := of_decide_eq_true hover
        rw [withinLimit, List.length_append, if_pos (by omega)]
      · have hfits' := of_decide_eq_false hfits
        have hmore : config.responseBodyLimit < reads + (front ++ bytes).length := by
          rw [List.length_append]
          omega
        refine (ih (by rw [List.length_append]; omega) hmore).mono fun rest'' x hx => ?_
        rw [List.append_assoc, ← hrest, List.length_append, Nat.add_assoc, ← htotal] at hx
        exact hx

/-- **A refresh token's request comes to what its response does**, in whatever
pieces it comes in, and to an endpoint that is unavailable only where that is
what the response says or something has failed. No more is read than a buffer
past the limit. -/
theorem requestRefresh_verdict (S : SerdeJson) (hbudget : 0 < config.elapsedBudget) (refreshToken : String) :
    Alone (Http.Serves faulty config.elapsedBudget head) () (fun rest x =>
      body.length ≤ rest.length + (config.responseBodyLimit + bufferSize) ∧
        (x = refreshVerdict S config.responseBodyLimit head body ∨ (faulty ∧ x = .error .unavailable))) body
      (requestRefresh S config refreshToken).run := by
  have hunread : body.length ≤ body.length + (config.responseBodyLimit + bufferSize) := Nat.le_add_right _ _
  refine Http.alone_buildClient_bind (fun hfaulty => ⟨hunread, .inr ⟨hfaulty, rfl⟩⟩) ?_
  refine alone_checkBudget_bind hbudget (fun hfaulty => ⟨hunread, .inr ⟨hfaulty, rfl⟩⟩) ?_
  refine Http.alone_post_bind (fun hfaulty => ⟨hunread, .inr ⟨hfaulty, rfl⟩⟩) ?_
  refine alone_checkBudget_bind hbudget (fun hfaulty => ⟨hunread, .inr ⟨hfaulty, rfl⟩⟩) ?_
  refine alone_rejectIf_bind (fun hstatus => ⟨hunread, .inl ?_⟩) fun hstatus => ?_
  · rw [refreshVerdict, if_pos (of_decide_eq_true hstatus)]
  have hstatus' := of_decide_eq_false hstatus
  refine alone_bind (R := fun rest x => body.length ≤ rest.length + (config.responseBodyLimit + bufferSize) ∧
    (x = (if overLimit config.responseBodyLimit head body then .error .unavailable else .ok body) ∨
      (faulty ∧ x = .error .unavailable))) ?_ (fun rest e he => ?_) fun rest read hread => ?_
  · refine alone_rejectIf_bind (fun hdeclared => ⟨hunread, .inl ?_⟩) fun hdeclared => ?_
    · simp [overLimit, hdeclared]
    · refine (alone_readLoop hbudget (Nat.zero_le _) (by simp)).mono fun rest x hx => ?_
      simpa [overLimit, hdeclared, withinLimit] using hx
  · obtain ⟨hconsumed, hx | ⟨hfaulty, hx⟩⟩ := he
    · split at hx
      · next hover =>
        cases hx
        refine ⟨hconsumed, .inl ?_⟩
        rw [refreshVerdict, if_neg hstatus', if_pos hover]
      · cases hx
    · cases hx
      exact ⟨hconsumed, .inr ⟨hfaulty, rfl⟩⟩
  · obtain ⟨hconsumed, hx | ⟨-, hx⟩⟩ := hread
    · split at hx
      · cases hx
      · next hover =>
        cases hx
        rw [refreshVerdict, if_neg hstatus', if_neg hover]
        cases hsuccess : head.isSuccess with
        | false => exact ⟨hconsumed, .inl rfl⟩
        | true => exact ⟨hconsumed, .inl rfl⟩
    · cases hx

end

/-- An error that says for good that the token has been used before. -/
def reusedBody : Bytes := Json.render (.obj [("error", .obj [("code", .str "Refresh_Token_Reused")])])

theorem requestRefresh_verdict_sample :
    Alone (Http.Serves False RefreshConfig.production.elapsedBudget { status := 400, contentLength := none }) ()
      (fun _ x => x = .error .reauthenticationRequired) reusedBody (requestRefresh serdeJson .production "token").run := by
  have hverdict : refreshVerdict serdeJson RefreshConfig.production.responseBodyLimit { status := 400, contentLength := none }
      reusedBody = .error .reauthenticationRequired := by
    decide +kernel
  exact (requestRefresh_verdict serdeJson (by decide) "token").mono fun rest x hx =>
    (hx.2.resolve_right And.left).trans hverdict

end AgentHarness.Auth
