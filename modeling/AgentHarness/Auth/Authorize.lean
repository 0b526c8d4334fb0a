/-
The browser's part of a login: the secrets that are drawn (`pkce.rs`), the
URL that is opened and the form a code is exchanged with (`oauth.rs`).

What a provider reads of the URL and of the form fits together
(`exchange_verifies`), what it answers to the URL is the answer the callback
waits for (`answer_ends_wait`), and the answer to one login is none to
another (`accepted_once`).
-/
import Mathlib.Data.Bool.AllAny
import AgentHarness.Auth.CallbackSpec
import AgentHarness.Lib.Base64
import AgentHarness.Lib.FormText
import AgentHarness.Lib.Sha256

namespace AgentHarness.Auth

open Text

def clientId : String := "app_EMoamEEZ73f0CkXaXp7hrann"
def originator : String := "rust-agent-harness"
def scopes : String := "openid profile email offline_access"

/-! ## Secrets -/

structure AuthSecrets where
  state : String
  verifier : String
  challenge : String
  deriving DecidableEq

/-- `URL_SAFE_NO_PAD.encode`. -/
def urlSafeText (bytes : Bytes) : String := String.ofList (Base64.urlSafeNoPadEncode bytes)

def challengeOf (verifier : String) : String := urlSafeText (Sha256.digest (utf8 verifier))

/-- The secrets of the bytes that are drawn for the state and for the verifier. -/
def AuthSecrets.generate (stateBytes verifierBytes : Vector UInt8 32) : AuthSecrets where
  state := urlSafeText stateBytes.toList
  verifier := urlSafeText verifierBytes.toList
  challenge := challengeOf (urlSafeText verifierBytes.toList)

/-! ## The URL -/

/-- What stands in a URL that has been parsed. -/
def isVisible (byte : UInt8) : Bool := 0x21 ≤ byte && byte ≤ 0x7E

theorem ascii_of_isVisible {byte : UInt8} (h : isVisible byte = true) : byte < 0x80 := by
  simp only [isVisible, Bool.and_eq_true, decide_eq_true_eq] at h
  exact UInt8.lt_of_le_of_lt h.2 (by decide)

/-- A URL that has been parsed. -/
structure Url where
  base : String
  query : Option String
  fragment : Option String
  base_visible : ∀ b ∈ utf8 base, isVisible b = true ∧ b ≠ 0x3F ∧ b ≠ 0x23
  query_visible : ∀ q ∈ query, ∀ b ∈ utf8 q, isVisible b = true ∧ b ≠ 0x23
  fragment_visible : ∀ f ∈ fragment, ∀ b ∈ utf8 f, isVisible b = true

namespace Url

theorem getD_visible (url : Url) : ∀ b ∈ utf8 (url.query.getD ""), isVisible b = true ∧ b ≠ 0x23 := by
  cases h : url.query with
  | none => exact fun b hb => nomatch hb
  | some q => exact url.query_visible q h

theorem appendPairs_visible (url : Url) (pairs : List (String × String)) :
    ∀ b ∈ Form.appendPairs (utf8 (url.query.getD "")) pairs, isVisible b = true ∧ b ≠ 0x23 := by
  have hall : ∀ n < 256, Form.isWritten (UInt8.ofNat n) = true →
      isVisible (UInt8.ofNat n) = true ∧ UInt8.ofNat n ≠ 0x23 := by decide +kernel
  intro b hb
  rcases Form.isWritten_of_mem_appendPairs hb with hb | hb
  · exact url.getD_visible b hb
  · have hwritten := hall b.toNat b.toNat_lt
    rw [UInt8.ofNat_toNat] at hwritten
    exact hwritten hb

theorem utf8_appendPairs (url : Url) (pairs : List (String × String)) :
    utf8 (Form.asciiText (Form.appendPairs (utf8 (url.query.getD "")) pairs)) =
      Form.appendPairs (utf8 (url.query.getD "")) pairs :=
  Form.utf8_asciiText fun b hb => ascii_of_isVisible (url.appendPairs_visible pairs b hb).1

/-- `query_pairs_mut().append_pair(..)`, once for each pair. -/
def appendPairs (url : Url) (pairs : List (String × String)) : Url where
  base := url.base
  query := some (Form.asciiText (Form.appendPairs (utf8 (url.query.getD "")) pairs))
  fragment := url.fragment
  base_visible := url.base_visible
  query_visible := by
    intro q hq
    cases hq
    rw [utf8_appendPairs]
    exact url.appendPairs_visible pairs
  fragment_visible := url.fragment_visible

def text (url : Url) : String :=
  url.base ++ (url.query.elim "" fun q => "?" ++ q) ++ url.fragment.elim "" fun f => "#" ++ f

/-- The names and values of its query. -/
def pairs (url : Url) : List (String × String) := Form.parse (utf8 (url.query.getD ""))

/-- What a reader of a text has of its query: what is after the first `?`, up to the first `#`. -/
def pairsOf (text : String) : List (String × String) :=
  Form.parse (((utf8 text).takeWhile (· ≠ 0x23)).dropWhile (· ≠ 0x3F)).tail

/-- **The pairs that are appended are read** after those that were there. -/
theorem pairs_appendPairs (url : Url) (ps : List (String × String)) : (url.appendPairs ps).pairs = url.pairs ++ ps := by
  simp only [pairs, appendPairs, Option.getD_some]
  rw [utf8_appendPairs, Form.parse_appendPairs]

/-- **A URL's pairs are read of its text.** -/
theorem pairsOf_text (url : Url) : pairsOf url.text = url.pairs := by
  have htext : utf8 url.text = utf8 url.base ++ ((url.query.elim [] fun q => 0x3F :: utf8 q) ++
      url.fragment.elim [] fun f => 0x23 :: utf8 f) := by
    have hempty : utf8 "" = [] := rfl
    have hmark : utf8 "?" = [0x3F] := by decide
    have hhash : utf8 "#" = [0x23] := by decide
    rw [text, utf8_append, utf8_append, List.append_assoc]
    cases url.query <;> cases url.fragment <;> simp [hempty, hmark, hhash]
  have hbase : ∀ b ∈ utf8 url.base, decide (b ≠ 0x23) = true ∧ decide (b ≠ 0x3F) = true := by
    intro b hb
    obtain ⟨-, hmark, hhash⟩ := url.base_visible b hb
    exact ⟨decide_eq_true hhash, decide_eq_true hmark⟩
  have hquery : ∀ b ∈ url.query.elim [] fun q => 0x3F :: utf8 q, decide (b ≠ 0x23) = true := by
    cases hq : url.query with
    | none => exact fun b hb => nomatch hb
    | some q =>
      intro b hb
      rcases List.mem_cons.mp hb with rfl | hb
      · rfl
      · exact decide_eq_true (url.query_visible q hq b hb).2
  have hfragment : (url.fragment.elim [] fun f => 0x23 :: utf8 f).takeWhile (fun b => decide (b ≠ 0x23)) = [] := by
    cases url.fragment <;> rfl
  have htail : ((url.query.elim [] fun q => 0x3F :: utf8 q).dropWhile (fun b => decide (b ≠ 0x3F))).tail =
      utf8 (url.query.getD "") := by
    cases url.query <;> rfl
  rw [pairsOf, htext, List.takeWhile_append_of_pos fun b hb => (hbase b hb).1, List.takeWhile_append_of_pos hquery,
    hfragment, List.append_nil, List.dropWhile_append_of_pos fun b hb => (hbase b hb).2, htail, pairs]

end Url

def redirectUri (port : UInt16) : String := "http://localhost:" ++ toString port.toNat ++ Callback.callbackPath

/-- `https://auth.openai.com/oauth/authorize` -/
def productionEndpoint : Url where
  base := "https://auth.openai.com/oauth/authorize"
  query := none
  fragment := none
  base_visible := List.all_iff_forall_prop.mp (by decide)
  query_visible := nofun
  fragment_visible := nofun

def authorizationUrl (endpoint : Url) (redirectUri : String) (secrets : AuthSecrets) : Url :=
  endpoint.appendPairs [
    ("response_type", "code"),
    ("client_id", clientId),
    ("redirect_uri", redirectUri),
    ("scope", scopes),
    ("code_challenge", secrets.challenge),
    ("code_challenge_method", "S256"),
    ("state", secrets.state),
    ("originator", originator),
    ("id_token_add_organizations", "true"),
    ("codex_cli_simplified_flow", "true")]

/-- What a code is exchanged with. -/
def exchangeForm (code redirectUri verifier : String) : String :=
  Form.serialize [
    ("grant_type", "authorization_code"),
    ("client_id", clientId),
    ("code", code),
    ("redirect_uri", redirectUri),
    ("code_verifier", verifier)]

/-! ## What a provider makes of them -/

/-- What a provider checks of a token request, against the authorization it
granted the code for: the client and the redirection are the same, and the
challenge is that of the verifier. -/
structure Verifies (authorization token : List (String × String)) (code : String) : Prop where
  code : Form.values token "code" = [code]
  client : Form.values token "client_id" = Form.values authorization "client_id"
  redirection : Form.values token "redirect_uri" = Form.values authorization "redirect_uri"
  method : Form.values authorization "code_challenge_method" = ["S256"]
  challenge : ∃ verifier, Form.values token "code_verifier" = [verifier] ∧
    Form.values authorization "code_challenge" = [challengeOf verifier]

/-- What a provider answers with: a code or an error under its name, and the
state as it was given. -/
def answered (url : Url) (name value : String) : List (String × String) :=
  (name, value) :: (Form.values url.pairs "state").map ("state", ·)

/-- The request for the redirection with these pairs. -/
def redirected (pairs : List (String × String)) : Callback.Request where
  method := .get
  url := Callback.callbackPath ++ "?" ++ Form.serialize pairs

section
variable {endpoint : Url} {uri code : String} {secrets : AuthSecrets}

theorem pairs_authorizationUrl (hquery : endpoint.query = none) : (authorizationUrl endpoint uri secrets).pairs = [
    ("response_type", "code"), ("client_id", clientId), ("redirect_uri", uri), ("scope", scopes),
    ("code_challenge", secrets.challenge), ("code_challenge_method", "S256"), ("state", secrets.state),
    ("originator", originator), ("id_token_add_organizations", "true"), ("codex_cli_simplified_flow", "true")] := by
  have hnone : endpoint.pairs = [] := by
    rw [Url.pairs, hquery]
    rfl
  rw [authorizationUrl, Url.pairs_appendPairs, hnone, List.nil_append]

theorem values_state (hquery : endpoint.query = none) (uri : String) (secrets : AuthSecrets) :
    Form.values (authorizationUrl endpoint uri secrets).pairs "state" = [secrets.state] := by
  rw [pairs_authorizationUrl hquery]
  simp [Form.values]

/-- **What is asked for is what is exchanged.** Whatever is redirected to and
drawn, a provider reads in the URL the state and the redirection it is to
answer with, and for any code its checks of the form pass. -/
theorem exchange_verifies (hquery : endpoint.query = none) (stateBytes verifierBytes : Vector UInt8 32) (uri code : String) :
    let secrets := AuthSecrets.generate stateBytes verifierBytes
    let authorization := (authorizationUrl endpoint uri secrets).pairs
    Form.values authorization "response_type" = ["code"] ∧ Form.values authorization "state" = [secrets.state] ∧
      Form.values authorization "redirect_uri" = [uri] ∧
      Verifies authorization (Form.parse (utf8 (exchangeForm code uri secrets.verifier))) code := by
  intro secrets authorization
  have hpairs : authorization = _ := pairs_authorizationUrl hquery
  have htoken : Form.parse (utf8 (exchangeForm code uri secrets.verifier)) = [("grant_type", "authorization_code"),
      ("client_id", clientId), ("code", code), ("redirect_uri", uri), ("code_verifier", secrets.verifier)] :=
    Form.parse_serialize _
  rw [hpairs, htoken]
  refine ⟨by simp [Form.values], by simp [Form.values], by simp [Form.values], ?_⟩
  constructor
  · simp [Form.values]
  · simp [Form.values]
  · simp [Form.values]
  · simp [Form.values]
  · exact ⟨secrets.verifier, by simp [Form.values], by simp [Form.values, secrets, AuthSecrets.generate]⟩

end

/-- Thirty-two bytes that are all zero. -/
def zeroBytes : Vector UInt8 32 := Vector.replicate 32 0

/-! ## The answer -/

section
variable {pairs : List (String × String)} {state : String}

theorem redirected_url (pairs : List (String × String)) :
    (redirected pairs).url.toList = Callback.callbackPath.toList ++ '?' :: (Form.serialize pairs).toList := by
  simp [redirected]

theorem redirected_takeWhile (pairs : List (String × String)) :
    (redirected pairs).url.toList.takeWhile (· ≠ '?') = Callback.callbackPath.toList ∧
      (redirected pairs).url.toList.dropWhile (· ≠ '?') = '?' :: (Form.serialize pairs).toList := by
  have hpath : ∀ c ∈ Callback.callbackPath.toList, decide (c ≠ '?') = true := List.all_iff_forall_prop.mp (by decide)
  rw [redirected_url]
  constructor
  · rw [List.takeWhile_append_of_pos hpath]
    simp
  · rw [List.dropWhile_append_of_pos hpath]
    simp

theorem redirected_query (pairs : List (String × String)) : (redirected pairs).query = Form.appendPairs [] pairs := by
  rw [Callback.Request.query, (redirected_takeWhile pairs).2, List.tail_cons, String.ofList_toList, Form.utf8_serialize]

/-- **The pairs of a redirection** are the parameters of its request. -/
theorem redirected_values (pairs : List (String × String)) (name : String) :
    (redirected pairs).values name = Form.values pairs name := by
  rw [Callback.Request.values, redirected_query, ← Form.utf8_serialize, Form.parse_serialize]

/-- A redirection that is not too long, and has the state. -/
theorem redirected_valid (hsize : (redirected pairs).url.utf8ByteSize ≤ 8192)
    (hstate : Form.values pairs "state" = [state]) : (redirected pairs).Valid state where
  method := rfl
  size := hsize
  path := (redirected_takeWhile pairs).1
  ascii := by
    rw [redirected_query]
    exact Form.ascii_appendPairs_nil
  escaped := by
    rw [redirected_query]
    exact (Form.clean_appendPairs Form.clean_nil).1
  utf8 := by
    rw [redirected_query]
    exact (Form.clean_appendPairs Form.clean_nil).2
  knows := ⟨state, by rw [redirected_values, hstate], .inl rfl⟩

end

theorem generate_state_ne (stateBytes verifierBytes : Vector UInt8 32) :
    (AuthSecrets.generate stateBytes verifierBytes).state ≠ "" := by
  intro h
  have hlength := congrArg (fun text : String => text.toList.length) h
  simp [AuthSecrets.generate, urlSafeText, Base64.length_encode] at hlength

/-- What a provider that reads the URL answers with, among other parameters
and in any order, and the outcome that is. -/
inductive Answers (url : Url) (pairs : List (String × String)) : Callback.CallbackOutcome → Prop
  | code {code others} : Callback.Safe code → (∀ pair ∈ others, pair.1 ∉ ["state", "code", "error"]) →
      pairs.Perm (answered url "code" code ++ others) → Answers url pairs (.code code)
  | error {error others outcome} : Callback.Safe error → (∀ pair ∈ others, pair.1 ∉ ["state", "code", "error"]) →
      pairs.Perm (answered url "error" error ++ others) → (Callback.errorOutcome error).terminal = some outcome →
      Answers url pairs outcome

section
variable {endpoint : Url} {uri : String} {stateBytes verifierBytes : Vector UInt8 32} {pairs : List (String × String)}
  {outcome : Callback.CallbackOutcome}

/-- The parameters of an answer, whatever comes with it. -/
theorem values_answered {url : Url} {state name value : String} {others : List (String × String)}
    (hstate : Form.values url.pairs "state" = [state]) (hname : name ∈ ["code", "error"])
    (hothers : ∀ pair ∈ others, pair.1 ∉ ["state", "code", "error"]) (hperm : pairs.Perm (answered url name value ++ others)) :
    Form.values pairs "state" = [state] ∧
      ∀ name' ∈ ["code", "error"], Form.values pairs name' = if name' = name then [value] else [] := by
  have hfront : answered url name value = [(name, value), ("state", state)] := by
    rw [answered, hstate]
    rfl
  have hother : ∀ name' ∈ ["state", "code", "error"], ∀ pair ∈ others, pair.1 ≠ name' :=
    fun name' hmem pair hpair heq => hothers pair hpair (heq ▸ hmem)
  have hne : name ≠ "state" := by
    rintro rfl
    exact absurd hname (by decide)
  rw [hfront] at hperm
  constructor
  · have hvalues : Form.values [(name, value), ("state", state)] "state" = [state] := by
      rw [Form.values_cons_other hne, Form.values_cons_self, Form.values_nil]
    rw [Form.values_of_perm hperm (hother "state" (by simp)) (by rw [hvalues]; exact Nat.le_refl 1), hvalues]
  · intro name' hname'
    have hne' : "state" ≠ name' := by
      rintro rfl
      exact absurd hname' (by decide)
    have hvalues : Form.values [(name, value), ("state", state)] name' = if name' = name then [value] else [] := by
      split
      · rename_i heq
        rw [heq, Form.values_cons_self, Form.values_cons_other hne.symm, Form.values_nil]
      · rename_i hdiff
        rw [Form.values_cons_other (Ne.symm hdiff), Form.values_cons_other hne', Form.values_nil]
    have hlength : (Form.values [(name, value), ("state", state)] name').length ≤ 1 := by
      rw [hvalues]
      split <;> simp
    rw [Form.values_of_perm hperm (hother name' (List.mem_cons_of_mem _ hname')) hlength, hvalues]

theorem redirected_accepted (hquery : endpoint.query = none) (hsize : (redirected pairs).url.utf8ByteSize ≤ 8192)
    (h : Answers (authorizationUrl endpoint uri (.generate stateBytes verifierBytes)) pairs outcome) :
    (Callback.validateRequest (redirected pairs) (AuthSecrets.generate stateBytes verifierBytes).state).terminal =
      some outcome := by
  have hne := generate_state_ne stateBytes verifierBytes
  have hstate := values_state hquery uri (.generate stateBytes verifierBytes)
  generalize AuthSecrets.generate stateBytes verifierBytes = secrets at hne hstate h
  cases h with
  | @code code others hsafe hothers hperm =>
    obtain ⟨hstates, hvalues⟩ := values_answered hstate (by simp) hothers hperm
    have hcode : Callback.validateRequest (redirected pairs) secrets.state = .code code := by
      rw [Callback.validateRequest_code_iff hne, redirected_values, redirected_values, hvalues "code" (by simp),
        hvalues "error" (by simp)]
      exact ⟨redirected_valid hsize hstates, rfl, rfl, hsafe⟩
    rw [hcode]
    rfl
  | @error error others _ hsafe hothers hperm houtcome =>
    obtain ⟨hstates, hvalues⟩ := values_answered hstate (by simp) hothers hperm
    have herror : Callback.validateRequest (redirected pairs) secrets.state = Callback.errorOutcome error := by
      rw [Callback.validateRequest_error_iff hne (Callback.errorOutcome_mem error), redirected_values, redirected_values,
        hvalues "code" (by simp), hvalues "error" (by simp)]
      exact ⟨redirected_valid hsize hstates, rfl, error, rfl, hsafe, rfl⟩
    rw [herror]
    exact houtcome

/-- **The provider's answer ends the wait.** A provider that reads the URL of
a login and redirects with a code or an error and the state it read, among
whatever other parameters and in any order, ends the login's wait with that
code, or with what the error says, whatever requests that do not know the
state came before. -/
theorem answer_ends_wait (hquery : endpoint.query = none) (hsize : (redirected pairs).url.utf8ByteSize ≤ 8192)
    (h : Answers (authorizationUrl endpoint uri (.generate stateBytes verifierBytes)) pairs outcome)
    {timeout started : Nat} {turns : List Callback.Turn} {before after : List Callback.Request}
    (htime : Callback.InTime (started + timeout) turns)
    (hrequests : Callback.requests (started + timeout) turns = before ++ redirected pairs :: after)
    (hbefore : ∀ r ∈ before, ¬r.Knows (AuthSecrets.generate stateBytes verifierBytes).state) :
    Callback.wait (AuthSecrets.generate stateBytes verifierBytes).state timeout started turns = .ok outcome := by
  have hne := generate_state_ne stateBytes verifierBytes
  have haccepted := redirected_accepted hquery hsize h
  have hstrangers : before.findSome? (fun r =>
      (Callback.validateRequest r (AuthSecrets.generate stateBytes verifierBytes).state).terminal) = none := by
    rw [List.findSome?_eq_none_iff]
    intro r hr
    rw [Option.eq_none_iff_forall_ne_some]
    intro outcome' hterminal
    exact hbefore r hr (Callback.terminal_knows hne hterminal)
  rw [Callback.wait, Callback.waitUntil_eq htime, hrequests, Callback.firstTerminal, List.findSome?_append, hstrangers,
    Option.none_or, List.findSome?_cons, haccepted]

end

/-- What a provider redirects with that was denied the access. -/
def sampleDenied : List (String × String) :=
  [("scope", "a b"), ("state", (AuthSecrets.generate zeroBytes zeroBytes).state), ("error", "access_denied")]

theorem answer_ends_wait_sample :
    Callback.wait (AuthSecrets.generate zeroBytes zeroBytes).state 10 0 [Callback.sampleTurn (redirected sampleDenied)] =
      .ok .denied := by
  have hanswers : Answers (authorizationUrl productionEndpoint (redirectUri 1455) (.generate zeroBytes zeroBytes))
      sampleDenied .denied := by
    have hothers : ∀ pair ∈ [("scope", "a b")], pair.1 ∉ ["state", "code", "error"] := by decide
    have hsafe : Callback.Safe "access_denied" := ⟨by decide, List.all_iff_forall_prop.mp (by decide)⟩
    refine .error hsafe hothers ?_ rfl
    rw [answered, values_state rfl]
    exact (List.reverse_perm _).symm
  have hrequests : Callback.requests (0 + 10) [Callback.sampleTurn (redirected sampleDenied)] =
      [] ++ redirected sampleDenied :: [] := rfl
  refine answer_ends_wait rfl (by decide +kernel) hanswers ?_ hrequests nofun
  intro turn hturn
  rw [List.mem_singleton] at hturn
  subst hturn
  exact ⟨by decide, by intro u hu; cases hu⟩

/-! ## One login and another -/

theorem generate_state_length (stateBytes verifierBytes : Vector UInt8 32) :
    (AuthSecrets.generate stateBytes verifierBytes).state.toList.length = 43 := by
  simp [AuthSecrets.generate, urlSafeText, Base64.length_encode]

theorem urlSafeText_inj {bytes bytes' : Bytes} (h : urlSafeText bytes = urlSafeText bytes') : bytes = bytes' := by
  have htext := congrArg String.toList h
  simp only [urlSafeText, String.toList_ofList] at htext
  exact Base64.encode_inj htext

/-- The state that a request has is that of one login. -/
theorem knows_once {request : Callback.Request} {stateBytes stateBytes' verifierBytes verifierBytes' : Vector UInt8 32}
    (h : request.Knows (AuthSecrets.generate stateBytes verifierBytes).state)
    (h' : request.Knows (AuthSecrets.generate stateBytes' verifierBytes').state) : stateBytes = stateBytes' := by
  have hlength := generate_state_length stateBytes verifierBytes
  have hlength' := generate_state_length stateBytes' verifierBytes'
  have hsuffix : Callback.acceptedStateSuffix.toList.length = 36 := by decide
  obtain ⟨state, hstate, hcase⟩ := h
  obtain ⟨state', hstate', hcase'⟩ := h'
  obtain rfl : state = state' := by
    rw [hstate] at hstate'
    exact List.singleton_inj.mp hstate'
  refine Vector.toList_inj.mp (urlSafeText_inj ?_)
  -- the lengths tell whether the suffix is there
  rcases hcase with hcase | hcase <;> rcases hcase' with hcase' | hcase'
  · exact hcase.symm.trans hcase'
  · have h := congrArg (fun text : String => text.toList.length) (hcase.symm.trans hcase')
    simp only [String.toList_append, List.length_append] at h
    omega
  · have h := congrArg (fun text : String => text.toList.length) (hcase'.symm.trans hcase)
    simp only [String.toList_append, List.length_append] at h
    omega
  · have h := congrArg String.toList (hcase.symm.trans hcase')
    rw [String.toList_append, String.toList_append] at h
    exact String.toList_inj.mp (List.append_cancel_right h)

/-- **The answer to one login is none to another.** A request that ends the
wait of one login is refused by every login whose state was drawn from other
bytes, and leaves its wait with the same outcome as if it had never come. -/
theorem accepted_once {request : Callback.Request} {stateBytes stateBytes' verifierBytes verifierBytes' : Vector UInt8 32}
    {outcome : Callback.CallbackOutcome} (hdrawn : stateBytes ≠ stateBytes')
    (h : (Callback.validateRequest request (AuthSecrets.generate stateBytes verifierBytes).state).terminal = some outcome)
    (before after : List Callback.Request) :
    (Callback.validateRequest request (AuthSecrets.generate stateBytes' verifierBytes').state).terminal = none ∧
      Callback.firstTerminal (AuthSecrets.generate stateBytes' verifierBytes').state (before ++ request :: after) =
        Callback.firstTerminal (AuthSecrets.generate stateBytes' verifierBytes').state (before ++ after) := by
  have hnone : (Callback.validateRequest request (AuthSecrets.generate stateBytes' verifierBytes').state).terminal = none := by
    rw [Option.eq_none_iff_forall_ne_some]
    intro outcome' h'
    have hknows := Callback.terminal_knows (generate_state_ne stateBytes verifierBytes) h
    have hknows' := Callback.terminal_knows (generate_state_ne stateBytes' verifierBytes') h'
    exact hdrawn (knows_once hknows hknows')
  refine ⟨hnone, ?_⟩
  rw [Callback.firstTerminal, Callback.firstTerminal, List.findSome?_append, List.findSome?_append,
    List.findSome?_cons, hnone]

/-- Thirty-two bytes that are all one. -/
def oneBytes : Vector UInt8 32 := Vector.replicate 32 1

theorem accepted_once_sample :
    (Callback.validateRequest (redirected sampleDenied) (AuthSecrets.generate oneBytes zeroBytes).state).terminal = none := by
  have hdrawn : zeroBytes ≠ oneBytes := by decide +kernel
  have haccepted : (Callback.validateRequest (redirected sampleDenied)
      (AuthSecrets.generate zeroBytes zeroBytes).state).terminal = some .denied := by
    decide +kernel
  exact (accepted_once hdrawn haccepted [] []).1

end AgentHarness.Auth
