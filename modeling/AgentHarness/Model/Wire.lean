/-
A question as it goes over the wire: its model calls are exchanges with the
model's endpoint, and its refresh one with the token endpoint. The prompt goes
to the model's endpoint alone, with the latest record's token and without the
lock, a second time only once the first was not authorized; and nothing else
goes anywhere (`ask_wire`). What comes back is what the model of a question
answers, so all that is true of that is true here (`ask_wire_answers`).
-/
import AgentHarness.Auth.Wire
import AgentHarness.Model.Request
import AgentHarness.Sse.Stream

namespace AgentHarness.Model

open Text Except Interact Auth

/-! ## The question, before the wire -/

section
variable {S : SerdeJson} {platform : Platform} {prompt : String}

abbrev UseHistory := History String ModelError

def isRejected (e : ModelError) : Bool := e == .connectionRejected

/-- What a question returns, if it says so, is what a call has returned or a
refresh was told. -/
def Reports (h : UseHistory) : Except ModelError String → Prop
  | .ok text => ∃ c, ⟨.operation c, .ok text⟩ ∈ h
  | .error .connectionRejected => (∃ c, ⟨.operation c, .error .connectionRejected⟩ ∈ h) ∨
      ∃ refreshToken, ⟨.refresh refreshToken, .error .reauthenticationRequired⟩ ∈ h
  | .error _ => True

theorem reports_flatten {h : UseHistory} {res : Except CredentialUseError (Except ModelError String)}
    (hreturned : ∀ x, res = .ok x → ∃ c, ⟨.operation c, x⟩ ∈ h) (htells : Tells h res) : Reports h (flatten res) := by
  cases res with
  | ok x =>
    obtain ⟨c, hmem⟩ := hreturned x rfl
    cases x with
    | ok text => exact ⟨c, hmem⟩
    | error e =>
      cases e with
      | connectionRejected => exact .inl ⟨c, hmem⟩
      | _ => trivial
  | error e =>
    cases e with
    | reauthenticationRequired => exact .inr (htells _ rfl rfl)
    | _ => trivial

/-- `test_connection`: a question that is asked as it is. -/
def testConnection (S : SerdeJson) (platform : Platform) :
    Program Request (Answer String ModelError) (Except ModelError String) :=
  (withRenewableAuthorizedCredential S platform isRejected).run.bind fun result => .ret (flatten result)

/-- A program that uses the credential as a call does, and reports what it returns. -/
structure Reporting (S : SerdeJson) (p : Program Request (Answer String ModelError) (Except ModelError String)) : Prop where
  meets : p.Meets (.free fun h r => requestGuar S isRejected h r) Reports []

theorem testConnection_reporting : Reporting S (testConnection S platform) := by
  have hfrom : (withRenewableAuthorizedCredentialFrom (T := String) S isRejected).run.Meets
      (.free fun h r => requestGuar S isRejected h r)
      (fun h res => (∀ x, res = .ok x → ∃ c, ⟨.operation c, x⟩ ∈ h) ∧ Tells h res) [] :=
    (((withRenewable_meets S isRejected).and_free (renewable_returned.and_free withRenewable_tells)).weaken
      fun h r hguar => hguar.1.2).mono fun h res hres => hres.2
  have hcall : (withRenewableAuthorizedCredential (T := String) S platform isRejected).run.Meets
      (.free fun h r => requestGuar S isRejected h r)
      (fun h res => (∀ x, res = .ok x → ∃ c, ⟨.operation c, x⟩ ∈ h) ∧ Tells h res) [] := by
    refine meets_exit_bind.mpr ⟨fun e he => ⟨nofun, ?_⟩, fun _ _ => ?_⟩
    · obtain ⟨-, rfl⟩ := rejectIf_error_iff.mp he
      exact .of_ne nofun
    refine meets_exit_bind.mpr ⟨fun e he => ⟨nofun, .of_ne fun hreauth => ?_⟩, fun _ _ => hfrom⟩
    obtain rfl := Except.error.inj hreauth
    exact absurd he (mapError_ne fun e => by cases e <;> nofun)
  exact ⟨hcall.bind fun h res hres => reports_flatten hres.1 hres.2⟩

theorem ask_reporting : Reporting S (ask S platform prompt) := by
  unfold ask
  split
  · next e he =>
    rw [validatePrompt] at he
    split at he
    · cases he
      exact ⟨trivial⟩
    · cases he
  · exact testConnection_reporting

end

/-! ## Over the wire -/

/-- What a question asks for over the wire. -/
inductive NetRequest where
  | use (r : WireRequest)
  | model (r : ModelRequest)

def NetAnswer : NetRequest → Type
  | .use r => WireAnswer String ModelError r
  | .model r => ModelAnswer r

abbrev UseWireHistory := WireHistory String ModelError
abbrev NetHistory := List (Event NetAnswer)

section
variable (S : SerdeJson) (fromStr : String → Option Json) (refreshConfig : RefreshConfig) (config : TransportConfig)
  (instructions prompt : String)

/-- An operation is a model call. -/
def overNet : Program.Handler (WireAnswer String ModelError) NetAnswer Unit
  | _, .call (.operation credential) =>
    (Program.lift NetRequest.model (modelCall fromStr config credential instructions prompt).run).bind fun x => .ret ((), x)
  | _, r => (Program.request (NetRequest.use r)).bind fun a => .ret ((), a)

/-- `ask`, over the wire. -/
def askOverNet (platform : Platform) : Program NetRequest NetAnswer (Unit × Unit × Except ModelError String) :=
  Program.interpret (overNet fromStr config askInstructions prompt) ()
    (Program.interpret (overWire S refreshConfig) () (ask S platform prompt))

/-- `test_connection`, over the wire. -/
def testConnectionOverNet (platform : Platform) : Program NetRequest NetAnswer (Unit × Unit × Except ModelError String) :=
  Program.interpret (overNet fromStr config testInstructions testPrompt) ()
    (Program.interpret (overWire S refreshConfig) () (testConnection S platform))

end

def viewUse : Event NetAnswer → Option (Event (WireAnswer String ModelError))
  | ⟨.use r, a⟩ => some ⟨r, a⟩
  | ⟨.model _, _⟩ => none

def viewModel : Event NetAnswer → Option (Event ModelAnswer)
  | ⟨.model r, a⟩ => some ⟨r, a⟩
  | ⟨.use _, _⟩ => none

/-- What has been exchanged but with the model. -/
def used (h : NetHistory) : UseWireHistory := h.filterMap viewUse

/-- What has been exchanged with the model. -/
def modelled (h : NetHistory) : ModelHistory := h.filterMap viewModel

def isOperation : Event (WireAnswer String ModelError) → Bool
  | ⟨.call (.operation _), _⟩ => true
  | _ => false

def unasked (h : UseWireHistory) : UseWireHistory := h.filter fun e => !isOperation e

/-- When the prompt may be sent: with the latest record, not under the lock,
and again only if it was not authorized. -/
structure MaySend (S : SerdeJson) (config : TransportConfig) (instructions prompt : String) (h : NetHistory)
    (request : HttpRequest) : Prop where
  unlocked : holdsLock (called (used h)) = false
  stored : ∃ b record, latestRecord (called (used h)) = some b ∧ CredentialRecord.deserializeStructural S b = .ok record ∧
    Carries config (authorizedCredential record) instructions prompt request
  again : sends (modelled h) = 0 ∨ sends (modelled h) = 1 ∧ ∃ response, Responded (modelled h) response ∧ response.status = 401

/-- What goes over the wire: what goes for the use of the credential, and the
prompt. A panic is only where the system has no random bytes. -/
def netGuar (S : SerdeJson) (refreshConfig : RefreshConfig) (config : TransportConfig) (instructions prompt : String)
    (h : NetHistory) : NetRequest → Prop
  | .use r => wireGuar S refreshConfig (used h) r
  | .model (.send request) => MaySend S config instructions prompt h request
  | .model .abort => ∃ h', modelled h = h' ++ [⟨.random 16, .error ()⟩]
  | .model _ => True

/-- The history of a use over the wire, and what it is with its model calls. -/
structure Netted (fromStr : String → Option Json) (limits : Sse.Limits) (h : UseWireHistory) (h' : NetHistory) : Prop where
  used : used h' = unasked h
  sent : sends (modelled h') ≤ count .operation (called h)
  borne : ∀ c x, ⟨.operation c, x⟩ ∈ called h →
    (∃ clock exchange, x = modelCallWith fromStr limits clock exchange) ∧ Bears fromStr limits (modelled h') x

section
variable {S : SerdeJson} {fromStr : String → Option Json} {refreshConfig : RefreshConfig} {config : TransportConfig}
  {limits : Sse.Limits} {instructions prompt : String} {h : UseWireHistory} {h' : NetHistory}

@[simp] theorem used_use (h' : NetHistory) (r : WireRequest) (a : WireAnswer String ModelError r) :
    used (h' ++ [⟨.use r, a⟩]) = used h' ++ [⟨r, a⟩] := by
  simp [used, viewUse]

@[simp] theorem used_model (h' : NetHistory) (r : ModelRequest) (a : ModelAnswer r) : used (h' ++ [⟨.model r, a⟩]) = used h' := by
  simp [used, viewUse]

@[simp] theorem modelled_use (h' : NetHistory) (r : WireRequest) (a : WireAnswer String ModelError r) :
    modelled (h' ++ [⟨.use r, a⟩]) = modelled h' := by
  simp [modelled, viewModel]

theorem called_unasked (h : UseWireHistory) : called (unasked h) = without .operation (called h) := by
  rw [called, unasked, List.filterMap_filter, without, called, List.filter_filterMap]
  refine List.filterMap_congr fun e _ => ?_
  obtain ⟨r | r, a⟩ := e
  · cases r <;> rfl
  · rfl

theorem wired_unasked (h : UseWireHistory) : wired (unasked h) = wired h := by
  rw [wired, unasked, List.filterMap_filter, wired]
  refine List.filterMap_congr fun e _ => ?_
  obtain ⟨r | r, a⟩ := e
  · cases r <;> rfl
  · rfl

theorem wireGuar_unasked {r : WireRequest} (hg : wireGuar S refreshConfig h r) : wireGuar S refreshConfig (unasked h) r := by
  cases r with
  | http r =>
    obtain ⟨hheld, b, record, hreread, hr⟩ := hg
    refine ⟨?_, b, record, ?_, by rwa [wired_unasked]⟩
    · rwa [called_unasked, holdsLock_without (k := .operation) _ nofun nofun]
    · rw [called_unasked]
      exact hreread.without (k := .operation) nofun nofun
  | call r =>
    cases r with
    | replace b =>
      obtain ⟨hheld, h₀, b₀, record, response, now, record', hcalled, hrecord, hgranted, hrest⟩ := hg
      refine ⟨?_, without .operation h₀, b₀, record, response, now, record', ?_, hrecord, by rwa [wired_unasked], hrest⟩
      · rwa [called_unasked, holdsLock_without (k := .operation) _ nofun nofun]
      · rw [called_unasked, hcalled, without, List.filter_append]
        rfl
    | _ => trivial

theorem Responded.append {h : ModelHistory} {response : Response} (hr : Responded h response) (more : ModelHistory) :
    Responded (h ++ more) response := by
  obtain ⟨request, hmem⟩ := hr
  exact ⟨request, List.mem_append_left _ hmem⟩

theorem Bears.append {h : ModelHistory} {x : Except ModelError String} (hb : Bears fromStr limits h x) (more : ModelHistory) :
    Bears fromStr limits (h ++ more) x := by
  cases x with
  | ok text =>
    obtain ⟨response, clock, hresponse, hrest⟩ := hb
    exact ⟨response, clock, hresponse.append more, hrest⟩
  | error e =>
    cases e with
    | connectionRejected =>
      obtain ⟨response, hresponse, hstatus⟩ := hb
      exact ⟨response, hresponse.append more, hstatus⟩
    | _ => trivial

namespace Netted

theorem use (hn : Netted fromStr limits h h') {r : WireRequest} (hr : ∀ c, r ≠ .call (.operation c))
    (a : WireAnswer String ModelError r) : Netted fromStr limits (h ++ [⟨r, a⟩]) (h' ++ [⟨.use r, a⟩]) := by
  have hnone : isOperation ⟨r, a⟩ = false := by
    rcases r with r | r
    · cases r <;> first | rfl | exact absurd rfl (hr _)
    · rfl
  have hcalled : ∃ more, called (h ++ [⟨r, a⟩]) = called h ++ more ∧ ∀ c x, ⟨.operation c, x⟩ ∉ more := by
    rcases r with r | r
    · refine ⟨[⟨r, a⟩], called_call h r a, fun c x hmem => ?_⟩
      cases List.mem_singleton.mp hmem
      exact hr c rfl
    · exact ⟨[], (called_http h r a).trans (List.append_nil _).symm, fun _ _ hmem => nomatch hmem⟩
  obtain ⟨more, hcalled, hmore⟩ := hcalled
  refine ⟨?_, ?_, fun c x hmem => ?_⟩
  · rw [used_use, hn.used, unasked, unasked, List.filter_append]
    simp [hnone]
  · rw [modelled_use, hcalled, count_append]
    exact Nat.le_add_right_of_le hn.sent
  · rw [modelled_use]
    rw [hcalled] at hmem
    exact hn.borne c x ((List.mem_append.mp hmem).resolve_right (hmore c x))

/-- A model call is an operation. -/
theorem model (hn : Netted fromStr limits h h') {h'' : NetHistory} (hused : Model.used h'' = Model.used h')
    (hmodelled : modelled h' <+: modelled h'') {c : AuthorizedCredential} {x : Except ModelError String}
    (hended : Ended fromStr limits (modelled h') (modelled h'') x) :
    Netted fromStr limits (h ++ [⟨.call (.operation c), x⟩]) h'' := by
  have hcalled : called (h ++ [⟨.call (.operation c), x⟩]) = called h ++ [⟨.operation c, x⟩] := called_call h (.operation c) x
  refine ⟨?_, ?_, fun c' x' hmem => ?_⟩
  · rw [hused, hn.used, unasked, unasked, List.filter_append]
    exact (List.append_nil _).symm
  · rw [hcalled, count_append]
    exact hended.once.trans (Nat.add_le_add_right hn.sent 1)
  · rw [hcalled] at hmem
    rcases List.mem_append.mp hmem with hmem | hmem
    · obtain ⟨more, hmore⟩ := hmodelled
      obtain ⟨hexchange, hbears⟩ := hn.borne c' x' hmem
      exact ⟨hexchange, hmore ▸ hbears.append more⟩
    · cases List.mem_singleton.mp hmem
      exact ⟨hended.modelled, hended.borne⟩

/-- Before a call its prompt may be sent, if it has not been since. -/
theorem maySend (hn : Netted fromStr limits h h') {c : AuthorizedCredential}
    (hguar : callGuar S refreshConfig isRejected h (.call (.operation c))) {h'' : NetHistory} (hused : Model.used h'' = Model.used h')
    (hmodelled : modelled h' <+: modelled h'') (hsent : sends (modelled h'') = sends (modelled h')) {request : HttpRequest}
    (hrequest : Carries config c instructions prompt request) : MaySend S config instructions prompt h'' request := by
  obtain ⟨h₀, hc, hunlocked, b, record, hlatest, hrecord, rfl, hcount⟩ := hguar
  have hcalled : called (Model.used h'') = without .operation (without .refresh h₀) := by
    rw [hused, hn.used, called_unasked, hc.called]
  have hsame : count .operation (called h) = count .operation h₀ := by
    rw [hc.called, count, without, List.countP_filter]
    refine List.countP_congr fun e _ => ?_
    obtain ⟨r, a⟩ := e
    cases r <;> rfl
  refine ⟨?_, ⟨b, record, ?_, hrecord, hrequest⟩, ?_⟩
  · rw [hcalled, holdsLock_without _ (by decide) (by decide), holdsLock_without _ (by decide) (by decide), hunlocked]
  · rw [hcalled, latestRecord_without _ (by decide) (by decide), latestRecord_without _ (by decide) (by decide), hlatest]
  · have hle := hn.sent
    rw [hsame, ← hsent] at hle
    rcases hcount with hnone | hreplays
    · exact .inl (by omega)
    · rw [hreplays.count_operation] at hle
      obtain ⟨h₁, c', e, h₂, b₁, rfl, -, -, hrejected, -⟩ := hreplays
      obtain rfl : e = .connectionRejected := beq_iff_eq.mp hrejected
      have hmem : ⟨.operation c', .error .connectionRejected⟩ ∈ called h := by
        rw [hc.called, without, List.mem_filter]
        exact ⟨List.mem_append_right _ List.mem_cons_self, rfl⟩
      obtain ⟨response, hresponse, hstatus⟩ := (hn.borne c' _ hmem).2
      obtain ⟨more, hmore⟩ := hmodelled
      rcases Nat.le_one_iff_eq_zero_or_eq_one.mp hle with hnone | hone
      · exact .inl hnone
      · exact .inr ⟨hone, response, hmore ▸ hresponse.append more, hstatus⟩

end Netted

theorem overNet_meets (hn : Netted fromStr config.limits h h') {r : WireRequest} (hwire : wireGuar S refreshConfig h r)
    (hguar : callGuar S refreshConfig isRejected h r) :
    (overNet fromStr config instructions prompt () r).Meets (.free (netGuar S refreshConfig config instructions prompt))
      (fun h'' x => Netted fromStr config.limits (h ++ [⟨r, x.2⟩]) h'') h' := by
  by_cases hr : ∃ c, r = .call (.operation c)
  · obtain ⟨c, rfl⟩ := hr
    have husable : Usable c := by
      obtain ⟨_, -, -, b, record, -, hrecord, rfl, -⟩ := hguar
      exact usable_of_stored hrecord
    have hview : ∀ r a, viewModel ⟨.model r, a⟩ = some ⟨r, a⟩ := fun _ _ => rfl
    refine (Program.Meets.lift (J := fun h'' => Model.used h'' = Model.used h' ∧ modelled h' <+: modelled h'') hview
      (modelCall_meets husable (modelled h')) ⟨rfl, List.prefix_refl _⟩ ?_).bind ?_
    · intro h'' r hkept hr
      refine ⟨?_, fun a => ⟨(used_model h'' r a).trans hkept.1, ?_⟩⟩
      · cases r with
        | send request => exact hn.maySend hguar hkept.1 hkept.2 hr.1 hr.2
        | abort => exact hr
        | clock | build _ _ | random _ => trivial
      · refine hkept.2.trans ?_
        rw [modelled, modelled, List.filterMap_append]
        exact List.prefix_append _ _
    · intro h'' x hx
      exact hn.model hx.1.1 hx.1.2 hx.2
  · have hother : overNet fromStr config instructions prompt () r =
        (Program.request (NetRequest.use r)).bind fun a => .ret ((), a) := by
      rcases r with r | r
      · cases r <;> first | rfl | exact absurd ⟨_, rfl⟩ hr
      · rfl
    rw [hother]
    refine ⟨?_, fun a _ => hn.use (fun c hc => hr ⟨c, hc⟩) a⟩
    change wireGuar S refreshConfig (used h') r
    rw [hn.used]
    exact wireGuar_unasked hwire

/-! ## A question over the wire -/

/-- What has come over the wire bears out the answer. -/
def Attested (S : SerdeJson) (fromStr : String → Option Json) (refreshConfig : RefreshConfig) (limits : Sse.Limits) (h : NetHistory) :
    Except ModelError String → Prop
  | .ok text => Bears fromStr limits (modelled h) (.ok text)
  | .error .connectionRejected => Bears fromStr limits (modelled h) (.error .connectionRejected) ∨
      ∃ refreshToken, Refused S refreshConfig refreshToken (wired (used h))
  | .error _ => True

theorem Netted.attested (hn : Netted fromStr limits h h') {h₀ : UseHistory} (hc : Carried S refreshConfig h₀ h)
    {answer : Except ModelError String} (hr : Reports h₀ answer) : Attested S fromStr refreshConfig limits h' answer := by
  have hoperation : ∀ c x, ⟨.operation c, x⟩ ∈ h₀ → Bears fromStr limits (modelled h') x := by
    intro c x hmem
    refine (hn.borne c x ?_).2
    rw [hc.called, without, List.mem_filter]
    exact ⟨hmem, rfl⟩
  cases answer with
  | ok text =>
    obtain ⟨c, hmem⟩ := hr
    exact hoperation c _ hmem
  | error e =>
    cases e with
    | connectionRejected =>
      rcases hr with ⟨c, hmem⟩ | ⟨refreshToken, hmem⟩
      · exact .inl (hoperation c _ hmem)
      · refine .inr ?_
        rw [hn.used, wired_unasked]
        exact ⟨refreshToken, hc.concluded refreshToken _ hmem⟩
    | _ => trivial

/-- What a program keeps of a use it also keeps over the wire. -/
theorem interpret_overNet_meets {α : Type} {p : Program Request (Answer String ModelError) α} {Q : UseHistory → α → Prop}
    (hp : p.Meets (.free fun h r => requestGuar S isRejected h r) Q []) :
    (Program.interpret (overNet fromStr config instructions prompt) () (Program.interpret (overWire S refreshConfig) () p)).Meets
      (.free (netGuar S refreshConfig config instructions prompt))
      (fun h' x => ∃ h h₀, Netted fromStr config.limits h h' ∧ Carried S refreshConfig h₀ h ∧ Q h₀ x.2.2 ∧
        p.Follows h₀ (.ret x.2.2)) [] := by
  have hwire := interpret_overWire_meets refreshConfig ((hp.and_free p.meets_follows).weaken fun h r hguar => hguar.1)
  have hnetted : Netted fromStr config.limits [] [] := ⟨rfl, Nat.le_refl 0, nofun⟩
  refine (Program.Meets.interpret (I := fun h h' _ => Netted fromStr config.limits h h') (fun h h' _ r hn hguar => ?_)
    hwire hnetted).mono ?_
  · exact (overNet_meets hn hguar.1 hguar.2).mono fun h'' x hx => ⟨trivial, hx⟩
  · intro h' x hx
    obtain ⟨h, hn, h₀, hc, hQ, hfollows⟩ := hx
    exact ⟨h, h₀, hn, hc, hQ, hfollows⟩

theorem net_follows {p : Program Request (Answer String ModelError) (Except ModelError String)} (hp : Reporting S p)
    {tr : NetHistory} {q}
    (hf : (Program.interpret (overNet fromStr config instructions prompt) ()
      (Program.interpret (overWire S refreshConfig) () p)).Follows tr q) :
    (∀ pre e post, tr = pre ++ e :: post → netGuar S refreshConfig config instructions prompt pre e.1) ∧
      ∀ x, q = .ret ((), (), x) → ∃ h h₀, Netted fromStr config.limits h tr ∧ Carried S refreshConfig h₀ h ∧ Reports h₀ x ∧
        p.Follows h₀ (.ret x) := by
  refine ⟨fun pre e post he => ?_, fun x hx => ?_⟩
  · subst he
    exact (interpret_overNet_meets hp.meets).guar_free hf
  · subst hx
    exact Program.meets_ret.mp ((interpret_overNet_meets hp.meets).follows_free hf)

/-- **A question over the wire.** In every run, up to any point and whatever is
answered: the prompt goes to the model's endpoint alone, as it is, with the
token and the account of the record that was read or written last, while the
lock is not held, and a second time only once the first was answered with 401;
whatever else goes, goes to the token endpoint for the refresh of a record that
was just re-read under the lock. Nothing goes for a prompt that is not valid. -/
theorem ask_wire {platform : Platform} {tr : NetHistory} {q}
    (hf : (askOverNet S fromStr refreshConfig config prompt platform).Follows tr q) :
    (∀ pre e post, tr = pre ++ e :: post → netGuar S refreshConfig config askInstructions prompt pre e.1) ∧
      (tr ≠ [] → validatePrompt prompt = .ok ()) := by
  rw [askOverNet] at hf
  refine ⟨(net_follows ask_reporting hf).1, fun hne => ?_⟩
  · cases hprompt : validatePrompt prompt with
    | ok _ => rfl
    | error e =>
      rw [ask, hprompt] at hf
      cases hf
      exact absurd rfl hne

/-- **A test of the connection over the wire** is a question with a prompt of its own. -/
theorem testConnection_wire {platform : Platform} {tr : NetHistory} {q}
    (hf : (testConnectionOverNet S fromStr refreshConfig config platform).Follows tr q) :
    (∀ pre e post, tr = pre ++ e :: post → netGuar S refreshConfig config testInstructions testPrompt pre e.1) ∧
      ∀ answer, q = .ret ((), (), answer) → Attested S fromStr refreshConfig config.limits tr answer := by
  rw [testConnectionOverNet] at hf
  obtain ⟨hguar, hanswer⟩ := net_follows testConnection_reporting hf
  refine ⟨hguar, fun answer hq => ?_⟩
  obtain ⟨h, h₀, hn, hc, hreports, -⟩ := hanswer answer hq
  exact hn.attested hc hreports

/-- **What is answered over the wire** is what the model of a question answers;
a text is what a response streamed, and the connection is rejected only where
one of the two endpoints has said so. -/
theorem ask_wire_answers {platform : Platform} {tr : NetHistory} {answer : Except ModelError String}
    (hf : (askOverNet S fromStr refreshConfig config prompt platform).Follows tr (.ret ((), (), answer))) :
    Answers S fromStr config.limits platform prompt answer ∧ Attested S fromStr refreshConfig config.limits tr answer := by
  rw [askOverNet] at hf
  obtain ⟨h, h₀, hn, hc, hreports, hfollows⟩ := (net_follows ask_reporting hf).2 answer rfl
  refine ⟨⟨h₀, hfollows, fun c a hmem => (hn.borne c a ?_).1⟩, hn.attested hc hreports⟩
  rw [hc.called, without, List.mem_filter]
  exact ⟨hmem, rfl⟩

end

/-! ## A question that is answered -/

theorem sample_usable : Usable (authorizedCredential sampleRecord) := usable_of_stored sample_stored

def sampleRandom : { bytes : Bytes // bytes.length = 16 } := ⟨List.replicate 16 0xa5, List.length_replicate⟩

/-- The sample stream, a byte at a time. -/
def sampleResponse : Response where
  status := 200
  contentType := none
  reads := (Sse.Delivery.bytewise Sse.sampleStream).results

theorem sample_answered :
    modelCallWith Sse.serdeFromStr .production (fun _ => 0) { client := .ok (), sent := .ok sampleResponse } = .ok "é" := by
  have hdecoded : Sse.decode Sse.serdeFromStr .production (fun _ => 0) sampleResponse.reads = .ok "é" := Sse.sample_decoded
  simp only [modelCallWith, bind_ok_iff]
  exact ⟨(), rfl, sampleResponse, rfl, (), rfl, (), rfl, by rw [hdecoded]; rfl⟩

def samplePlatform : Platform where
  macos := true
  refreshLock := .ok ()

/-- A stored credential that is not due, and what is answered with it. -/
def answeredUse : UseHistory :=
  [⟨.read, .ok (some (Json.render sampleRecord.toJson))⟩, ⟨.unixSeconds, (0 : UInt64)⟩,
    ⟨.operation (authorizedCredential sampleRecord), .ok "é"⟩]

theorem answeredUse_tested : (testConnection serdeJson samplePlatform).Follows answeredUse (.ret (.ok "é")) := by
  have hcall : (withRenewableAuthorizedCredential (T := String) serdeJson samplePlatform isRejected).run.Follows answeredUse
      (.ret (.ok (.ok "é"))) :=
    follows_exit_bind rfl (follows_exit_bind rfl (renewable_uses isRejected sample_stored sample_notDue "é"))
  exact hcall.bind_ret

theorem answeredUse_follows : (ask serdeJson samplePlatform "hi").Follows answeredUse (.ret (.ok "é")) := by
  have hprompt : validatePrompt "hi" = .ok () := by decide +kernel
  rw [ask, hprompt]
  exact answeredUse_tested

def answeredOverWire : UseWireHistory :=
  [⟨.call .read, .ok (some (Json.render sampleRecord.toJson))⟩] ++ ([⟨.call .unixSeconds, (0 : UInt64)⟩] ++
    ([⟨.call (.operation (authorizedCredential sampleRecord)), .ok "é"⟩] ++ []))

/-- The same use, over the wire. -/
def answeredWith (instructions prompt : String) : NetHistory :=
  [⟨.use (.call .read), .ok (some (Json.render sampleRecord.toJson))⟩] ++ ([⟨.use (.call .unixSeconds), (0 : UInt64)⟩] ++
    ((callRun .production instructions prompt sample_usable (fun _ => 0) sampleRandom (.ok sampleResponse)).map
      (fun e => ⟨.model e.1, e.2⟩) ++ []))

theorem answeredWith_follows (instructions prompt : String)
    {p : Program Request (Answer String ModelError) (Except ModelError String)} (hp : p.Follows answeredUse (.ret (.ok "é"))) :
    (Program.interpret (overNet Sse.serdeFromStr .production instructions prompt) ()
      (Program.interpret (overWire serdeJson .production) () p)).Follows (answeredWith instructions prompt) (.ret ((), (), .ok "é")) := by
  have hwire : (Program.interpret (overWire serdeJson .production) () p).Follows answeredOverWire (.ret ((), .ok "é")) :=
    hp.interpret (.cons (.cons .nil) (.cons (.cons .nil) (.cons (.cons .nil) .nil)))
  have hcall : (overNet Sse.serdeFromStr .production instructions prompt ()
      (.call (.operation (authorizedCredential sampleRecord)))).Follows
      ((callRun .production instructions prompt sample_usable (fun _ => 0) sampleRandom (.ok sampleResponse)).map
        fun e => ⟨.model e.1, e.2⟩) (.ret ((), .ok "é")) := by
    have hrun : (modelCall Sse.serdeFromStr .production (authorizedCredential sampleRecord) instructions prompt).run.Follows
        (callRun .production instructions prompt sample_usable (fun _ => 0) sampleRandom (.ok sampleResponse)) (.ret (.ok "é")) := by
      rw [← sample_answered]
      exact modelCall_follows sample_usable _ _ _
    have hlift : (Program.lift NetRequest.model (modelCall Sse.serdeFromStr .production (authorizedCredential sampleRecord)
        instructions prompt).run : Program NetRequest NetAnswer _).Follows _ _ := Program.Follows.lift hrun
    exact hlift.bind_ret
  exact hwire.interpret (.cons (.cons .nil) (.cons (.cons .nil) (.cons hcall .nil)))

def answeredOverNet : NetHistory := answeredWith askInstructions "hi"

theorem answeredOverNet_follows : (askOverNet serdeJson Sse.serdeFromStr .production .production "hi" samplePlatform).Follows
    answeredOverNet (.ret ((), (), .ok "é")) := answeredWith_follows askInstructions "hi" answeredUse_follows

/-- The prompt of a test is sent with the stored token, and what is answered is what was streamed. -/
theorem testConnection_wire_sample :
    (∃ pre request post, answeredWith testInstructions testPrompt = pre ++ ⟨.model (.send request), .ok sampleResponse⟩ :: post ∧
      MaySend serdeJson .production testInstructions testPrompt pre request) ∧
    Attested serdeJson Sse.serdeFromStr .production TransportConfig.production.limits (answeredWith testInstructions testPrompt)
      (.ok "é") := by
  have hf : (testConnectionOverNet serdeJson Sse.serdeFromStr .production .production samplePlatform).Follows _ _ :=
    answeredWith_follows testInstructions testPrompt answeredUse_tested
  obtain ⟨hguar, hanswer⟩ := testConnection_wire hf
  exact ⟨⟨(answeredWith testInstructions testPrompt).take 5, _, [], rfl,
    hguar ((answeredWith testInstructions testPrompt).take 5) ⟨.model (.send _), .ok sampleResponse⟩ [] rfl⟩, hanswer _ rfl⟩

/-- The prompt is sent with the stored token, and nothing was sent before. -/
theorem ask_wire_sample : ∃ pre request post, answeredOverNet = pre ++ ⟨.model (.send request), .ok sampleResponse⟩ :: post ∧
    MaySend serdeJson .production askInstructions "hi" pre request := by
  exact ⟨answeredOverNet.take 5, _, [], rfl,
    (ask_wire answeredOverNet_follows).1 (answeredOverNet.take 5) ⟨.model (.send _), .ok sampleResponse⟩ [] rfl⟩

theorem ask_wire_answers_sample :
    Answers serdeJson Sse.serdeFromStr TransportConfig.production.limits samplePlatform "hi" (.ok "é") ∧
      Attested serdeJson Sse.serdeFromStr .production TransportConfig.production.limits answeredOverNet (.ok "é") :=
  ask_wire_answers answeredOverNet_follows

end AgentHarness.Model
