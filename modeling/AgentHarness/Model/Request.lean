/-
The request of a model call (`openai-codex-model`), and the call over the
wire. The body is that of the prompt and has nothing of the credential. The
headers can be sent for every credential whose record is accepted
(`sendable_headers`), so a call neither panics nor fails on them. It sends one
request at most, and what it returns is what the response says
(`modelCall_meets`).
-/
import Mathlib.Data.Bool.AllAny
import AgentHarness.Lib.Json.Derive
import AgentHarness.Lib.Json.Render
import AgentHarness.Lib.Sha256
import AgentHarness.Lib.Utf8
import AgentHarness.Model.Ask

namespace AgentHarness.Model

open Text Except Interact Auth

/-! ## The body -/

def endpoint : String := "https://chatgpt.com/backend-api/codex/responses"
def modelName : String := "gpt-5.5"
def testInstructions : String := "Return only the requested plain-text verification response. Do not call tools."
def testPrompt : String := "Reply with exactly: OpenAI Codex connection verified."
def askInstructions : String := "Answer the user's prompt directly. Do not call tools."

def inputContent (text : String) : Json := Json.ofFields ["type", "text"] [.str "input_text", .str text]

def inputMessage (prompt : String) : Json := Json.ofFields ["role", "content"] [.str "user", .arr [inputContent prompt]]

def reasoning : Json := Json.ofFields ["effort"] [.str "low"]

def requestFields : List String :=
  ["model", "instructions", "input", "tool_choice", "parallel_tool_calls", "reasoning", "store", "stream"]

def requestBody (instructions prompt : String) : Json :=
  Json.ofFields requestFields [.str modelName, .str instructions, .arr [inputMessage prompt], .str "auto", .bool false, reasoning,
    .bool false, .bool true]

theorem requestBody_parses (instructions prompt : String) :
    Json.parse (Json.render (requestBody instructions prompt)) = some (requestBody instructions prompt) := by
  refine Json.parse_render ?_ ?_
  · simp [requestBody, requestFields, inputMessage, inputContent, reasoning, Json.ofFields, Json.Integral, Json.IntegralMembers,
      Json.IntegralItems]
  · simp [requestBody, requestFields, inputMessage, inputContent, reasoning, Json.ofFields, Json.depth, Json.depthMembers,
      Json.depthItems, Json.maxDepth]

/-! ## The headers -/

def originator : String := "rust-agent-harness"
def userAgent : String := "rust-agent-harness/0.1.0"
def providerClientVersion : String := "0.144.0"

/-- The bytes in hex, two digits each. -/
def correlationId (random : Bytes) : String :=
  String.ofList (random.flatMap fun byte => [Sha256.hexDigit (byte.toNat / 16), Sha256.hexDigit (byte.toNat % 16)])

def callHeaders (correlationId : String) : List (String × String) := [
  ("accept", "text/event-stream"),
  ("originator", originator),
  ("user-agent", userAgent),
  ("version", providerClientVersion),
  ("session-id", correlationId),
  ("x-client-request-id", correlationId),
  ("content-type", "application/json")]

def authorized (credential : AuthorizedCredential) (headers : List (String × String)) : List (String × String) :=
  headers ++ [("authorization", "Bearer " ++ credential.accessToken), ("chatgpt-account-id", credential.accountId)]

def Sendable (headers : List (String × String)) : Prop := ∀ header ∈ headers, headerValueFromStr header.2 = true

instance (headers : List (String × String)) : Decidable (Sendable headers) :=
  inferInstanceAs (Decidable (∀ header ∈ headers, headerValueFromStr header.2 = true))

/-- A request that can go over the wire. -/
structure HttpRequest where
  url : String
  headers : List (String × String)
  body : Bytes
  sendable : Sendable headers

/-! ## The call -/

structure TransportConfig where
  endpoint : String
  connectTimeout : Nat
  requestTimeout : Nat
  limits : Sse.Limits

def TransportConfig.production : TransportConfig where
  endpoint := Model.endpoint
  connectTimeout := 10 * 1000000000
  requestTimeout := 60 * 1000000000
  limits := .production

/-- What a call asks for. `clock` is all of the readings since the call
began; `abort` is a panic. -/
inductive ModelRequest where
  | clock
  | build (connectTimeout requestTimeout : Nat)
  | random (size : Nat)
  | send (request : HttpRequest)
  | abort

def ModelAnswer : ModelRequest → Type
  | .clock => Nat → Nat
  | .build _ _ => Except Unit Unit
  | .random size => Except Unit { bytes : Bytes // bytes.length = size }
  | .send _ => Except RequestError Response
  | .abort => Empty

abbrev WireCall (ε α : Type) := Interact.Call ModelRequest ModelAnswer ε α

section
variable {ε α : Type}

def abort : WireCall ε α := do
  let never : Empty ← Interact.ask ModelRequest.abort
  nomatch never

/-- `RandomCorrelationIds::next` -/
def nextCorrelationId : WireCall ε String := do
  match ← Interact.ask (ModelRequest.random 16) with
  | .ok random => return correlationId random.val
  | .error _ => abort

/-- `AuthorizedCredential::authorize`. What the account cannot be is not
expected; the token is looked at once the request is sent. -/
def authorize (credential : AuthorizedCredential) (headers : List (String × String)) : WireCall ε (List (String × String)) :=
  if headerValueFromStr credential.accountId then return authorized credential headers else abort

/-- A header that is none fails before anything is sent. -/
def send (url : String) (headers : List (String × String)) (body : Bytes) : WireCall ε (Except RequestError Response) :=
  if sendable : Sendable headers then Interact.ask (ModelRequest.send ⟨url, headers, body, sendable⟩)
  else return .error { isTimeout := false }

end

section
variable (fromStr : String → Option Json) (config : TransportConfig) (credential : AuthorizedCredential)
  (instructions prompt : String)

/-- `model_call_with`, over the wire. -/
def modelCall : WireCall ModelError String := do
  let clock ← Interact.ask ModelRequest.clock
  exit ((← Interact.ask (ModelRequest.build config.connectTimeout config.requestTimeout)).mapError fun _ => .unavailable)
  let correlationId ← nextCorrelationId
  let headers ← authorize credential (callHeaders correlationId)
  let sent ← send config.endpoint headers (Json.render (requestBody instructions prompt))
  exit (modelCallWith fromStr config.limits clock { client := .ok (), sent })

end

/-! ## What can be sent -/

theorem headerValueFromStr_append (s t : String) :
    headerValueFromStr (s ++ t) = (headerValueFromStr s && headerValueFromStr t) := by
  simp [headerValueFromStr]

theorem headerValueFromStr_correlationId (random : Bytes) : headerValueFromStr (correlationId random) = true := by
  have hdigits : ∀ c ∈ (correlationId random).toList, c ∈ "0123456789abcdef".toList := by
    intro c hc
    rw [correlationId, String.toList_ofList] at hc
    obtain ⟨byte, -, hc⟩ := List.mem_flatMap.mp hc
    simp only [List.mem_cons, List.not_mem_nil, or_false] at hc
    rcases hc with rfl | rfl <;> exact Sha256.hexDigit_mem _
  have hascii : ∀ c ∈ "0123456789abcdef".toList, c.toNat < 128 := List.all_iff_forall_prop.mp (by decide)
  have hvisible : ∀ c ∈ "0123456789abcdef".toList, UInt8.ofNat c.toNat ≥ 0x20 ∧ UInt8.ofNat c.toNat ≠ 0x7f :=
    List.all_iff_forall_prop.mp (by decide)
  rw [headerValueFromStr, utf8_of_ascii fun c hc => hascii c (hdigits c hc), List.all_eq_true]
  intro b hb
  obtain ⟨c, hc, rfl⟩ := List.mem_map.mp hb
  simp [hvisible c (hdigits c hc)]

/-- What the reader of the record looks at. -/
structure Usable (credential : AuthorizedCredential) : Prop where
  accessToken : headerValueFromStr credential.accessToken = true
  accountId : headerValueFromStr credential.accountId = true

theorem usable_of_stored {S : SerdeJson} {b : Bytes} {record : CredentialRecord}
    (h : CredentialRecord.deserializeStructural S b = .ok record) : Usable (authorizedCredential record) := by
  obtain ⟨-, -, hstructural⟩ := CredentialRecord.deserializeStructural_ok_iff.mp h
  obtain ⟨htoken, haccount, -⟩ := CredentialRecord.structural_iff.mp hstructural
  simp only [validHeaderComponent, Bool.and_eq_true] at htoken haccount
  exact ⟨htoken.2, haccount.2⟩

theorem sendable_callHeaders (random : Bytes) : Sendable (callHeaders (correlationId random)) := by
  have hid := headerValueFromStr_correlationId random
  have hfixed : headerValueFromStr "text/event-stream" = true ∧ headerValueFromStr originator = true ∧
      headerValueFromStr userAgent = true ∧ headerValueFromStr providerClientVersion = true ∧
      headerValueFromStr "application/json" = true := by
    decide +kernel
  intro header hheader
  simp only [callHeaders, List.mem_cons, List.not_mem_nil, or_false] at hheader
  rcases hheader with rfl | rfl | rfl | rfl | rfl | rfl | rfl
  · exact hfixed.1
  · exact hfixed.2.1
  · exact hfixed.2.2.1
  · exact hfixed.2.2.2.1
  · exact hid
  · exact hid
  · exact hfixed.2.2.2.2

/-- The headers of a usable credential can be sent. -/
theorem sendable_headers {credential : AuthorizedCredential} (h : Usable credential) (random : Bytes) :
    Sendable (authorized credential (callHeaders (correlationId random))) := by
  have hbearer : headerValueFromStr "Bearer " = true := by decide +kernel
  refine List.forall_mem_append.mpr ⟨sendable_callHeaders random, fun header hheader => ?_⟩
  simp only [List.mem_cons, List.not_mem_nil, or_false] at hheader
  rcases hheader with rfl | rfl
  · rw [headerValueFromStr_append, hbearer, h.accessToken]
    rfl
  · exact h.accountId

/-! ## What a call does -/

abbrev ModelHistory := List (Event ModelAnswer)

def isSend : Event ModelAnswer → Bool
  | ⟨.send _, _⟩ => true
  | _ => false

def sends (h : ModelHistory) : Nat := h.countP isSend

/-- A response has come. -/
def Responded (h : ModelHistory) (response : Response) : Prop := ∃ request, ⟨.send request, .ok response⟩ ∈ h

/-- The request is the one of the prompt, with the credential in its headers. -/
structure Carries (config : TransportConfig) (credential : AuthorizedCredential) (instructions prompt : String)
    (request : HttpRequest) : Prop where
  url : request.url = config.endpoint
  headers : ∃ random, random.length = 16 ∧ request.headers = authorized credential (callHeaders (correlationId random))
  body : Json.parse request.body = some (requestBody instructions prompt)

/-- One request is sent from `h₀` on, and there is a panic only where the
system has no random bytes. -/
def modelGuar (config : TransportConfig) (credential : AuthorizedCredential) (instructions prompt : String)
    (h₀ h : ModelHistory) : ModelRequest → Prop
  | .send request => sends h = sends h₀ ∧ Carries config credential instructions prompt request
  | .abort => ∃ h', h = h' ++ [⟨.random 16, .error ()⟩]
  | _ => True

/-- What a response says of the result: a text is what it streams, and the
connection is rejected where it says so. -/
def Bears (fromStr : String → Option Json) (limits : Sse.Limits) (h : ModelHistory) : Except ModelError String → Prop
  | .ok text => ∃ response clock, Responded h response ∧ 200 ≤ response.status ∧ response.status < 300 ∧
      Sse.decode fromStr limits clock response.reads = .ok text
  | .error .connectionRejected => ∃ response, Responded h response ∧ response.status = 401
  | .error _ => True

/-- What a call from `h₀` returns. -/
structure Ended (fromStr : String → Option Json) (limits : Sse.Limits) (h₀ h : ModelHistory) (x : Except ModelError String) :
    Prop where
  once : sends h ≤ sends h₀ + 1
  modelled : ∃ clock exchange, x = modelCallWith fromStr limits clock exchange
  borne : Bears fromStr limits h x

section
variable {fromStr : String → Option Json} {limits : Sse.Limits} {clock : Nat → Nat} {exchange : Exchange} {h₀ h : ModelHistory}

theorem validateStatus_ok {status : Nat} {u : Unit} (h : validateStatus status = .ok u) : 200 ≤ status ∧ status < 300 := by
  unfold validateStatus at h
  split at h
  · assumption
  · cases h

theorem statusError_rejected {status : Nat} (h : statusError status = .connectionRejected) : status = 401 := by
  unfold statusError at h
  split_ifs at h
  assumption

theorem modelCallWith_bears (hsent : ∀ response, exchange.sent = .ok response → Responded h response) :
    Bears fromStr limits h (modelCallWith fromStr limits clock exchange) := by
  cases hx : modelCallWith fromStr limits clock exchange with
  | ok text =>
    simp only [modelCallWith, bind_ok_iff] at hx
    obtain ⟨-, -, response, hresponse, _, hstatus, _, -, hdecode⟩ := hx
    obtain ⟨hmin, hmax⟩ := validateStatus_ok hstatus
    exact ⟨response, clock, hsent response (of_mapError_ok hresponse), hmin, hmax, of_mapError_ok hdecode⟩
  | error e =>
    by_cases he : e = .connectionRejected
    · subst he
      simp only [modelCallWith, bind_error_iff] at hx
      obtain hx | ⟨-, -, hx | ⟨response, hresponse, hx | ⟨-, -, hx | ⟨-, -, hx⟩⟩⟩⟩ := hx
      · exact absurd hx (mapError_ne fun _ => nofun)
      · refine absurd hx (mapError_ne fun e => ?_)
        unfold mapRequestError
        split <;> nofun
      · unfold validateStatus at hx
        split at hx
        · cases hx
        · exact ⟨response, hsent response (of_mapError_ok hresponse), statusError_rejected (Except.error.inj hx)⟩
      · unfold validateContentType at hx
        split at hx
        · cases hx
        · split at hx <;> cases hx
      · refine absurd hx (mapError_ne fun e => ?_)
        cases e <;> nofun
    · cases e with
      | connectionRejected => exact absurd rfl he
      | _ => trivial

end

section
variable {fromStr : String → Option Json} {config : TransportConfig} {credential : AuthorizedCredential}
  {instructions prompt : String}

theorem authorize_usable {ε : Type} {headers : List (String × String)} (husable : Usable credential) :
    (authorize credential headers : WireCall ε _) = pure (authorized credential headers) := if_pos husable.accountId

theorem send_sendable {ε : Type} {url : String} {headers : List (String × String)} {body : Bytes} (hsendable : Sendable headers) :
    (send url headers body : WireCall ε _) = Interact.ask (ModelRequest.send ⟨url, headers, body, hsendable⟩) := dif_pos hsendable

/-- **A call sends its prompt once at most**, never panics on a credential
that is usable, and returns what the response says. -/
theorem modelCall_meets (husable : Usable credential) (h₀ : ModelHistory) :
    (modelCall fromStr config credential instructions prompt).run.Meets
      (.free (modelGuar config credential instructions prompt h₀)) (Ended fromStr config.limits h₀) h₀ := by
  refine meets_ask_bind.mpr ⟨trivial, fun clock _ => meets_ask_bind.mpr ⟨trivial, fun built _ => ?_⟩⟩
  cases built with
  | error _ =>
    refine ⟨by simp [sends, isSend], ⟨clock, { client := .error (), sent := .error { isTimeout := false } }, rfl⟩, trivial⟩
  | ok _ =>
    refine meets_ask_bind.mpr ⟨trivial, fun random _ => ?_⟩
    cases random with
    | error _ => exact ⟨⟨_, rfl⟩, fun never => nomatch never⟩
    | ok random =>
      have hsendable := sendable_headers husable random.val
      change Program.Meets _ _ _ (do
        let headers ← authorize credential (callHeaders (correlationId random.val))
        let sent ← send config.endpoint headers (Json.render (requestBody instructions prompt))
        exit (modelCallWith fromStr config.limits clock { client := .ok (), sent }) : WireCall ModelError String).run
      rw [authorize_usable husable]
      change Program.Meets _ _ _ (do
        let sent ← send config.endpoint (authorized credential (callHeaders (correlationId random.val))) _
        exit (modelCallWith fromStr config.limits clock { client := .ok (), sent }) : WireCall ModelError String).run
      rw [send_sendable hsendable]
      refine meets_ask_bind.mpr ⟨⟨by simp [sends, isSend], rfl, ⟨_, random.property, rfl⟩, requestBody_parses _ _⟩, fun sent _ => ?_⟩
      refine ⟨by simp [sends, isSend], ⟨clock, _, rfl⟩, modelCallWith_bears fun response hresponse => ?_⟩
      obtain rfl : sent = .ok response := hresponse
      exact ⟨_, List.mem_concat_self⟩

/-- A call whose client is built and that has its random bytes. -/
def callRun (config : TransportConfig) (instructions prompt : String) (husable : Usable credential) (clock : Nat → Nat)
    (random : { bytes : Bytes // bytes.length = 16 }) (sent : Except RequestError Response) : ModelHistory :=
  [⟨.clock, clock⟩, ⟨.build config.connectTimeout config.requestTimeout, .ok ()⟩, ⟨.random 16, .ok random⟩,
    ⟨.send {
      url := config.endpoint
      headers := authorized credential (callHeaders (correlationId random.val))
      body := Json.render (requestBody instructions prompt)
      sendable := sendable_headers husable random.val }, sent⟩]

theorem modelCall_follows (husable : Usable credential) (clock : Nat → Nat) (random : { bytes : Bytes // bytes.length = 16 })
    (sent : Except RequestError Response) :
    (modelCall fromStr config credential instructions prompt).run.Follows
      (callRun config instructions prompt husable clock random sent)
      (.ret (modelCallWith fromStr config.limits clock { client := .ok (), sent })) := by
  refine .cons (.cons (.cons ?_))
  change (do
    let headers ← authorize credential (callHeaders (correlationId random.val))
    let sent ← send config.endpoint headers (Json.render (requestBody instructions prompt))
    exit (modelCallWith fromStr config.limits clock { client := .ok (), sent }) : WireCall ModelError String).run.Follows _ _
  rw [authorize_usable husable]
  change (do
    let sent ← send config.endpoint (authorized credential (callHeaders (correlationId random.val))) _
    exit (modelCallWith fromStr config.limits clock { client := .ok (), sent }) : WireCall ModelError String).run.Follows _ _
  rw [send_sendable (sendable_headers husable random.val)]
  exact follows_ask_bind .nil

end

end AgentHarness.Model
