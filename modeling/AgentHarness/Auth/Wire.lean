/-
The use of a credential with its refresh as it goes over the wire: the call
that uses the credential, where the request to refresh is the exchange with
the token endpoint. The whole exchange is made under the refresh lock, on the
record that was just re-read; there is one POST at most. What is stored is
that record with what the endpoint said of its token in a body that was read
to its end, and a user is sent to log in again only where the endpoint has
refused the token (`renewable_wire`).
-/
import AgentHarness.Auth.Renewable
import AgentHarness.Auth.TokenEndpoint
import AgentHarness.Lib.Interpret

namespace AgentHarness.Auth

open Text Except Interact

/-! ## One exchange -/

abbrev HttpHistory := List (Event Http.Answer)

def readBytes : Event Http.Answer → Bytes
  | ⟨.read _, .ok bytes⟩ => bytes.val
  | _ => []

/-- What has been read of a body. -/
def received (h : HttpHistory) : Bytes := h.flatMap readBytes

@[simp] theorem received_snoc (h : HttpHistory) (e : Event Http.Answer) : received (h ++ [e]) = received h ++ readBytes e := by
  simp [received]

/-- A response has this head. -/
def Answered (h : HttpHistory) (head : Http.ResponseHead) : Prop :=
  ∃ url contentType body, ⟨.post url contentType body, .ok head⟩ ∈ h

theorem Answered.append {h : HttpHistory} {head : Http.ResponseHead} (ha : Answered h head) (h' : HttpHistory) :
    Answered (h ++ h') head := by
  obtain ⟨url, contentType, body, hmem⟩ := ha
  exact ⟨url, contentType, body, List.mem_append_left _ hmem⟩

/-- The end of a body has been seen: a read that had room brought nothing. -/
def Ended (h : HttpHistory) : Prop := ∃ size bytes, ⟨.read size, .ok bytes⟩ ∈ h ∧ 0 < size ∧ bytes.val = []

theorem Ended.append {h : HttpHistory} (he : Ended h) (h' : HttpHistory) : Ended (h ++ h') := by
  obtain ⟨size, bytes, hmem, hend⟩ := he
  exact ⟨size, bytes, List.mem_append_left _ hmem, hend⟩

/-- Nothing has been sent. -/
def Unsent (h : HttpHistory) : Prop := ∀ url contentType body answered, ⟨.post url contentType body, answered⟩ ∉ h

theorem Unsent.snoc {h : HttpHistory} (hunsent : Unsent h) {r : Http.Request} (a : Http.Answer r)
    (hr : ∀ url contentType body, r ≠ .post url contentType body) : Unsent (h ++ [⟨r, a⟩]) := by
  intro url contentType body answered hmem
  rcases List.mem_append.mp hmem with hmem | hmem
  · exact hunsent url contentType body answered hmem
  · exact hr url contentType body (congrArg Sigma.fst (List.mem_singleton.mp hmem)).symm

/-- A response to the token has this head. -/
def AnsweredTo (config : RefreshConfig) (refreshToken : String) (h : HttpHistory) (head : Http.ResponseHead) : Prop :=
  ∃ body, ⟨.post config.endpoint "application/json" body, .ok head⟩ ∈ h ∧ Json.parse body = some (refreshRequest refreshToken)

theorem AnsweredTo.append {config : RefreshConfig} {refreshToken : String} {h : HttpHistory} {head : Http.ResponseHead}
    (ha : AnsweredTo config refreshToken h head) (h' : HttpHistory) : AnsweredTo config refreshToken (h ++ h') head := by
  obtain ⟨body, hmem, hbody⟩ := ha
  exact ⟨body, List.mem_append_left _ hmem, hbody⟩

/-- The endpoint has refused the token: it is not authorized, or the body of
an error, read to its end, says for good that it will not do. -/
def Refused (S : SerdeJson) (config : RefreshConfig) (refreshToken : String) (h : HttpHistory) : Prop :=
  ∃ head, AnsweredTo config refreshToken h head ∧
    (head.status = 401 ∨ head.isSuccess = false ∧ Ended h ∧ permanentErrorCode S (received h) = true)

/-- The endpoint has granted this for the token, in a body that was read to
its end and is within the limit. -/
def Granted (S : SerdeJson) (config : RefreshConfig) (refreshToken : String) (h : HttpHistory) (response : RefreshResponse) : Prop :=
  ∃ head, AnsweredTo config refreshToken h head ∧ head.isSuccess = true ∧ Ended h ∧
    (received h).length ≤ config.responseBodyLimit ∧ S.wireRefreshResponse (received h) = some response

/-- What has come over the wire bears out what is returned. -/
def Concludes (S : SerdeJson) (config : RefreshConfig) (refreshToken : String) (h : HttpHistory) :
    Except RefreshError RefreshResponse → Prop
  | .ok response => Granted S config refreshToken h response
  | .error .reauthenticationRequired => Refused S config refreshToken h
  | .error .unavailable => True

/-- What is sent is the token alone, and once. -/
def refreshGuar (config : RefreshConfig) (refreshToken : String) (h : HttpHistory) : Http.Request → Prop
  | .post url contentType body => Unsent h ∧ url = config.endpoint ∧ contentType = "application/json" ∧
      Json.parse body = some (refreshRequest refreshToken)
  | _ => True

theorem refreshRequest_parses (refreshToken : String) :
    Json.parse (Json.render (refreshRequest refreshToken)) = some (refreshRequest refreshToken) := by
  refine Json.parse_render ?_ ?_
  · simp [refreshRequest, refreshRequestFields, Json.ofFields, Json.Integral, Json.IntegralMembers]
  · simp [refreshRequest, refreshRequestFields, Json.ofFields, Json.depth, Json.depthMembers, Json.maxDepth]

/-- A body that is read as far as this, within the limit. -/
structure Reading (config : RefreshConfig) (refreshToken : String) (head : Http.ResponseHead) (h : HttpHistory) (body : Bytes) :
    Prop where
  answered : AnsweredTo config refreshToken h head
  received : received h = body
  fits : body.length ≤ config.responseBodyLimit

/-- A body that is read to its end, or nothing. -/
def Read (config : RefreshConfig) (refreshToken : String) (head : Http.ResponseHead) (h : HttpHistory) :
    Except RefreshError Bytes → Prop
  | .ok body => Reading config refreshToken head h body ∧ Ended h
  | .error e => e = .unavailable

section
variable {S : SerdeJson} {config : RefreshConfig} {refreshToken : String} {h : HttpHistory} {head : Http.ResponseHead} {body : Bytes}
  {C : Contract Http.Request Http.Answer}

theorem Reading.elapsed (hr : Reading config refreshToken head h body) (time : Nat) : Reading config refreshToken head (h ++ [⟨.elapsed, time⟩]) body where
  answered := hr.answered.append _
  received := by
    rw [received_snoc, hr.received]
    exact List.append_nil body
  fits := hr.fits

theorem Reading.read (hr : Reading config refreshToken head h body) {size : Nat} (bytes : { bytes : Bytes // bytes.length ≤ size })
    (hfits : (body ++ bytes.val).length ≤ config.responseBodyLimit) :
    Reading config refreshToken head (h ++ [⟨.read size, .ok bytes⟩]) (body ++ bytes.val) where
  answered := hr.answered.append _
  received := by rw [received_snoc, hr.received, readBytes]
  fits := hfits

theorem meets_checkBudget_bind {α : Type} {Q : HttpHistory → Except RefreshError α → Prop} {f : Unit → Http.Call RefreshError α}
    (helapsed : C.guar h .elapsed) (hlate : ∀ time, Q (h ++ [⟨.elapsed, time⟩]) (.error .unavailable))
    (hf : ∀ time, (f ()).run.Meets C Q (h ++ [⟨.elapsed, time⟩])) : (checkBudget config >>= f).run.Meets C Q h := by
  refine meets_ask_bind.mpr ⟨helapsed, fun time _ => ?_⟩
  refine meets_exit_bind.mpr ⟨fun e he => ?_, fun _ _ => hf time⟩
  obtain ⟨-, rfl⟩ := rejectIf_error_iff.mp he
  exact hlate time

theorem readLoop_meets {reads : Nat} (hr : Reading config refreshToken head h body) :
    (readLoop config reads body).run.Meets (.free (refreshGuar config refreshToken)) (Read config refreshToken head) h := by
  induction reads generalizing h body with
  | zero => rfl
  | succ reads ih =>
    refine meets_checkBudget_bind trivial (fun _ => rfl) fun time => ?_
    replace hr := hr.elapsed time
    refine meets_ask_bind.mpr ⟨trivial, fun bytes _ => ?_⟩
    cases bytes with
    | error _ => rfl
    | ok bytes =>
      refine meets_checkBudget_bind trivial (fun _ => rfl) fun time' => ?_
      split
      · next hnil =>
        have hread := (hr.read bytes (by rw [hnil, List.append_nil]; exact hr.fits)).elapsed time'
        have hended : Ended (h ++ [⟨.elapsed, time⟩] ++ [⟨.read bufferSize, .ok bytes⟩]) :=
          ⟨bufferSize, bytes, List.mem_concat_self, by decide, hnil⟩
        rw [hnil, List.append_nil] at hread
        exact ⟨hread, hended.append _⟩
      · refine meets_exit_bind.mpr ⟨fun e he => (rejectIf_error_iff.mp he).2.symm, fun _ hfits => ?_⟩
        have hfits' := of_decide_eq_false (rejectIf_ok_iff.mp hfits)
        refine ih ((hr.read bytes ?_).elapsed time')
        rw [List.length_append]
        omega

theorem readBounded_meets (hanswered : AnsweredTo config refreshToken h head) (hnone : received h = []) :
    (readBounded config head).run.Meets (.free (refreshGuar config refreshToken)) (Read config refreshToken head) h :=
  meets_exit_bind.mpr ⟨fun _ he => (rejectIf_error_iff.mp he).2.symm, fun _ _ => readLoop_meets ⟨hanswered, hnone, Nat.zero_le _⟩⟩

theorem Reading.concludes (hr : Reading config refreshToken head h body) (hended : Ended h) (hsuccess : head.isSuccess = false) :
    Concludes S config refreshToken h (.error (refreshBodyError S body)) := by
  unfold refreshBodyError
  split
  · next hpermanent => exact ⟨head, hr.answered, .inr ⟨hsuccess, hended, by rw [hr.received, hpermanent]⟩⟩
  · trivial

/-- From the response on. -/
theorem answered_concludes (hanswered : AnsweredTo config refreshToken h head) (hnone : received h = []) :
    (do
      exit (rejectIf (head.status = 401) .reauthenticationRequired)
      let body ← readBounded config head
      exit (rejectIf (!head.isSuccess) (refreshBodyError S body))
      exit (okOr (S.wireRefreshResponse body) .unavailable) : Http.Call RefreshError RefreshResponse).run.Meets
        (.free (refreshGuar config refreshToken)) (Concludes S config refreshToken) h := by
  refine meets_exit_bind.mpr ⟨fun e he => ?_, fun _ _ => ?_⟩
  · obtain ⟨hstatus, rfl⟩ := rejectIf_error_iff.mp he
    exact ⟨head, hanswered, .inl (of_decide_eq_true hstatus)⟩
  refine meets_bind (readBounded_meets hanswered hnone) (fun h e he => ?_) fun h body hr => ?_
  · obtain rfl : e = .unavailable := he
    trivial
  obtain ⟨hread, hended⟩ : Reading config refreshToken head h body ∧ Ended h := hr
  refine meets_exit_bind.mpr ⟨fun e he => ?_, fun _ hsuccess => ?_⟩
  · obtain ⟨hstatus, rfl⟩ := rejectIf_error_iff.mp he
    exact hread.concludes hended (by simpa using hstatus)
  · have hsuccess' : head.isSuccess = true := by simpa using rejectIf_ok_iff.mp hsuccess
    refine meets_exit.mpr ?_
    cases hwire : S.wireRefreshResponse body with
    | none => trivial
    | some response =>
      refine ⟨head, hread.answered, hsuccess', hended, ?_, ?_⟩
      · rw [hread.received]
        exact hread.fits
      · rw [hread.received, hwire]

/-- **What a refresh returns is what it was told**, and it has sent the token
once at most. -/
theorem requestRefresh_meets :
    (requestRefresh S config refreshToken).run.Meets (.free (refreshGuar config refreshToken))
      (Concludes S config refreshToken) [] := by
  have hnone : Unsent [] := nofun
  refine meets_ask_bind.mpr ⟨trivial, fun built _ => ?_⟩
  cases built with
  | error _ => trivial
  | ok _ =>
    refine meets_checkBudget_bind trivial (fun _ => trivial) fun time => ?_
    have hunsent := (hnone.snoc (r := .build config.connectTimeout config.requestTimeout) (.ok ()) nofun).snoc (r := .elapsed) time nofun
    refine meets_ask_bind.mpr ⟨⟨hunsent, rfl, rfl, refreshRequest_parses refreshToken⟩, fun sent _ => ?_⟩
    cases sent with
    | error _ => trivial
    | ok head =>
      refine meets_checkBudget_bind trivial (fun _ => trivial) fun time' => ?_
      exact answered_concludes ⟨_, List.mem_append_left _ List.mem_concat_self, refreshRequest_parses refreshToken⟩ rfl

end

/-! ## Over the wire -/

section
variable (T E : Type)

/-- What a use asks for where its refresh goes over the wire. -/
inductive WireRequest where
  | call (r : Request)
  | http (r : Http.Request)

def WireAnswer : WireRequest → Type
  | .call r => Answer T E r
  | .http r => Http.Answer r

end

section
variable {T E : Type}

abbrev WireHistory (T E : Type) := List (Event (WireAnswer T E))

/-- The refresh is the exchange with the endpoint; all else stands for itself. -/
def overWire (S : SerdeJson) (config : RefreshConfig) : Program.Handler (Answer T E) (WireAnswer T E) Unit
  | _, .refresh refreshToken => (Program.lift WireRequest.http (requestRefresh S config refreshToken).run).bind fun x => .ret ((), x)
  | _, r => (Program.request (WireRequest.call r)).bind fun a => .ret ((), a)

def renewableOverWire (S : SerdeJson) (config : RefreshConfig) (isUnauthorized : E → Bool) :
    Program WireRequest (WireAnswer T E) (Unit × Except CredentialUseError (Except E T)) :=
  Program.interpret (overWire S config) () (withRenewableAuthorizedCredentialFrom S isUnauthorized).run

def viewHttp : Event (WireAnswer T E) → Option (Event Http.Answer)
  | ⟨.http r, a⟩ => some ⟨r, a⟩
  | ⟨.call _, _⟩ => none

def viewCall : Event (WireAnswer T E) → Option (Event (Answer T E))
  | ⟨.call r, a⟩ => some ⟨r, a⟩
  | ⟨.http _, _⟩ => none

/-- What has gone over the wire. -/
def wired (h : WireHistory T E) : HttpHistory := h.filterMap viewHttp

/-- What the call has exchanged but for its refresh. -/
def called (h : WireHistory T E) : History T E := h.filterMap viewCall

variable (S : SerdeJson) (config : RefreshConfig)

/-- Whatever goes over the wire does so under the lock, for the record that
was just re-read; and what is stored, still under the lock, is that record
with what was granted for its token. -/
def wireGuar (h : WireHistory T E) : WireRequest → Prop
  | .http r => holdsLock (called h) = true ∧ ∃ b record, RereadUnderLock S (called h) b record ∧
      refreshGuar config record.refreshToken (wired h) r
  | .call (.replace b) => holdsLock (called h) = true ∧ ∃ h₀ b₀ record response now record',
      called h = h₀ ++ [⟨.acquire, .ok ()⟩, ⟨.read, .ok (some b₀)⟩, ⟨.unixSeconds, now⟩] ∧
      CredentialRecord.deserializeStructural S b₀ = .ok record ∧
      Granted S config record.refreshToken (wired h) response ∧
      record.applyRefresh S response now = .ok record' ∧ record'.serialize S = .ok b
  | .call _ => True

/-- A history but for its requests of a kind. -/
def without (k : Kind) (h : History T E) : History T E := h.filter fun e => !decide (e.1.kind = k)

/-- The history of a call, and what it is over the wire. -/
structure Carried (h : History T E) (h' : WireHistory T E) : Prop where
  called : called h' = without .refresh h
  idle : count .refresh h = 0 → wired h' = []
  concluded : ∀ refreshToken x, ⟨.refresh refreshToken, x⟩ ∈ h → Concludes S config refreshToken (wired h') x

/-- All else is asked for as by the call. -/
def callGuar (isUnauthorized : E → Bool) (h' : WireHistory T E) : WireRequest → Prop
  | .call r => ∃ h, Carried S config h h' ∧ requestGuar S isUnauthorized h r
  | .http _ => True

def wireContract (isUnauthorized : E → Bool) : Contract WireRequest (WireAnswer T E) :=
  .free fun h' r => wireGuar S config h' r ∧ callGuar S config isUnauthorized h' r

end

section
variable {T E : Type} {S : SerdeJson} {config : RefreshConfig} {isUnauthorized : E → Bool} {h : History T E} {h' : WireHistory T E}

@[simp] theorem called_call (h' : WireHistory T E) (r : Request) (a : Answer T E r) :
    called (h' ++ [⟨.call r, a⟩]) = called h' ++ [⟨r, a⟩] := by
  simp [called, List.filterMap_append, viewCall]

@[simp] theorem called_http (h' : WireHistory T E) (r : Http.Request) (a : Http.Answer r) :
    called (h' ++ [⟨.http r, a⟩]) = called h' := by
  simp [called, List.filterMap_append, viewCall]

@[simp] theorem wired_call (h' : WireHistory T E) (r : Request) (a : Answer T E r) :
    wired (h' ++ [⟨.call r, a⟩]) = wired h' := by
  simp [wired, List.filterMap_append, viewHttp]

theorem without_same {k : Kind} (h : History T E) {e : Event (Answer T E)} (he : e.1.kind = k) :
    without k (h ++ [e]) = without k h := by
  simp [without, he]

theorem without_other {k : Kind} (h : History T E) {e : Event (Answer T E)} (he : e.1.kind ≠ k) :
    without k (h ++ [e]) = without k h ++ [e] := by
  simp [without, he]

theorem holdsLock_without {k : Kind} (h : History T E) (hacquire : k ≠ .acquire) (hrelease : k ≠ .release) :
    holdsLock (without k h) = holdsLock h := by
  induction h using List.reverseRecOn with
  | nil => rfl
  | append_singleton h e ih =>
    by_cases he : e.1.kind = k
    · have hnote : noteLock (holdsLock h) e = holdsLock h := by
        obtain ⟨r, a⟩ := e
        cases r <;> first | rfl | exact absurd he.symm hacquire | exact absurd he.symm hrelease
      rw [without_same h he, ih, holdsLock_snoc, hnote]
    · rw [without_other h he, holdsLock_snoc, holdsLock_snoc, ih]

theorem latestRecord_without {k : Kind} (h : History T E) (hread : k ≠ .read) (hreplace : k ≠ .replace) :
    latestRecord (without k h) = latestRecord h := by
  induction h using List.reverseRecOn with
  | nil => rfl
  | append_singleton h e ih =>
    by_cases he : e.1.kind = k
    · have hnote : noteRecord (latestRecord h) e = latestRecord h := by
        obtain ⟨r, a⟩ := e
        cases r <;> first | rfl | exact absurd he.symm hread | exact absurd he.symm hreplace
      rw [without_same h he, ih, latestRecord_snoc, hnote]
    · rw [without_other h he, latestRecord_snoc, latestRecord_snoc, ih]

theorem RereadUnderLock.without {k : Kind} (hacquire : k ≠ .acquire) (hread : k ≠ .read) {b : Bytes} {record : CredentialRecord}
    (hr : RereadUnderLock S h b record) : RereadUnderLock S (Auth.without k h) b record := by
  obtain ⟨⟨h₀, rfl⟩, hrecord⟩ := hr
  refine ⟨⟨Auth.without k h₀, ?_⟩, hrecord⟩
  simp [Auth.without, Request.kind, hacquire.symm, hread.symm]

theorem Carried.holdsLock (hc : Carried S config h h') : holdsLock (Auth.called h') = Auth.holdsLock h := by
  rw [hc.called, holdsLock_without (k := .refresh) h nofun nofun]

theorem Carried.call (hc : Carried S config h h') {r : Request} (hr : r.kind ≠ .refresh) (a : Answer T E r) :
    Carried S config (h ++ [⟨r, a⟩]) (h' ++ [⟨.call r, a⟩]) where
  called := by rw [called_call, hc.called, without_other h hr]
  idle hcount := by rw [wired_call, hc.idle (by simpa [hr] using hcount)]
  concluded refreshToken x hmem := by
    rw [wired_call]
    rcases List.mem_append.mp hmem with hmem | hmem
    · exact hc.concluded refreshToken x hmem
    · cases List.mem_singleton.mp hmem
      exact absurd rfl hr

theorem Carried.refreshed (hc : Carried S config h h') (hcount : count .refresh h = 0) {h'' : WireHistory T E}
    (hcalled : Auth.called h'' = Auth.called h') {refreshToken : String} {x : Answer T E (.refresh refreshToken)}
    (hx : Concludes S config refreshToken (wired h'') x) : Carried S config (h ++ [⟨.refresh refreshToken, x⟩]) h'' where
  called := by rw [hcalled, hc.called, without_same (k := .refresh) h (e := ⟨.refresh refreshToken, x⟩) rfl]
  idle hnone := by simp [Request.kind] at hnone
  concluded refreshToken' x' hmem := by
    rcases List.mem_append.mp hmem with hmem | hmem
    · exact absurd (decide_eq_true (rfl : (Request.refresh refreshToken').kind = .refresh))
        (List.countP_eq_zero.mp hcount _ hmem)
    · cases List.mem_singleton.mp hmem
      exact hx

/-- What is stored is what was granted for the token of the record that was re-read. -/
theorem Carried.replace (hc : Carried S config h h') {b : Bytes} (hheld : Auth.holdsLock h = true) (hr : RefreshedUnderLock S h b) :
    wireGuar S config h' (.call (.replace b)) := by
  obtain ⟨h₀, b₀, record, response, now, record', rfl, hrecord, happly, hserialize⟩ := hr
  have hgranted : Granted S config record.refreshToken (wired h') response :=
    hc.concluded record.refreshToken (.ok response) (by simp)
  refine ⟨hc.holdsLock.trans hheld, Auth.without .refresh h₀, b₀, record, response, now, record', ?_, hrecord, hgranted, happly,
    hserialize⟩
  rw [hc.called]
  simp [Auth.without, Request.kind]

theorem overWire_meets {r : Request} (hc : Carried S config h h') (hguar : requestGuar S isUnauthorized h r) :
    (overWire S config () r).Meets (wireContract S config isUnauthorized) (fun h'' x => Carried S config (h ++ [⟨r, x.2⟩]) h'') h' := by
  have hcall : ∀ {r : Request}, r.kind ≠ .refresh → wireGuar S config h' (.call r) → requestGuar S isUnauthorized h r →
      ((Program.request (WireRequest.call r)).bind fun a => .ret ((), a) :
        Program WireRequest (WireAnswer T E) (Unit × Answer T E r)).Meets (wireContract S config isUnauthorized)
          (fun h'' x => Carried S config (h ++ [⟨r, x.2⟩]) h'') h' :=
    fun hr hwire hg => ⟨⟨hwire, h, hc, hg⟩, fun a _ => hc.call hr a⟩
  cases r with
  | refresh refreshToken =>
    obtain ⟨hheld, hcount, b, record, hreread, rfl⟩ := hguar
    have hwired : h'.filterMap viewHttp = [] := hc.idle hcount
    have hrefresh : (requestRefresh S config record.refreshToken).run.Meets (.free (refreshGuar config record.refreshToken))
        (Concludes S config record.refreshToken) (h'.filterMap viewHttp) := by
      rw [hwired]
      exact requestRefresh_meets
    have hview : ∀ r a, viewHttp (T := T) (E := E) ⟨.http r, a⟩ = some ⟨r, a⟩ := fun _ _ => rfl
    refine (Program.Meets.lift (J := fun h'' => called h'' = called h') hview hrefresh rfl ?_).bind ?_
    · intro h'' r hcalled hr
      refine ⟨⟨⟨?_, b, record, ?_, hr⟩, trivial⟩, fun a => (called_http h'' r a).trans hcalled⟩
      · rw [hcalled, hc.holdsLock, hheld]
      · rw [hcalled, hc.called]
        exact hreread.without (k := .refresh) nofun nofun
    · intro h'' x hx
      exact hc.refreshed hcount hx.1 hx.2
  | replace b => exact hcall nofun (hc.replace hguar.1 hguar.2.2.2) hguar
  | read | delete | unixSeconds | acquire | release | operation _ | bindCallback | openBrowser | waitCallback | exchangeCode _ =>
    exact hcall nofun trivial hguar

/-- What a program keeps of a call it also keeps over the wire. -/
theorem interpret_overWire_meets (config : RefreshConfig) {α : Type} {p : Program Request (Answer T E) α} {Q : History T E → α → Prop}
    (hp : p.Meets (.free fun h r => requestGuar S isUnauthorized h r) Q []) :
    (Program.interpret (overWire S config) () p).Meets (wireContract S config isUnauthorized)
      (fun h' x => ∃ h, Carried S config h h' ∧ Q h x.2) [] := by
  have hcarried : Carried S config ([] : History T E) [] := ⟨rfl, fun _ => rfl, nofun⟩
  refine Program.Meets.interpret (I := fun h h' _ => Carried S config h h') (fun h h' _ r hc hguar => ?_) hp hcarried
  exact (overWire_meets hc hguar).mono fun h'' x hx => ⟨trivial, hx⟩

/-! ## When a user has to log in again -/

/-- A call that says so has been told so by a refresh. -/
def ToldBy (h : History T E) (e : CredentialUseError) : Prop :=
  e = .reauthenticationRequired → ∃ refreshToken, ⟨.refresh refreshToken, .error .reauthenticationRequired⟩ ∈ h

/-- What is returned, if it is an error, is one that it has been told. -/
abbrev Tells {α : Type} (h : History T E) (x : Except CredentialUseError α) : Prop := ∀ e, x = .error e → ToldBy h e

theorem ToldBy.append {e : CredentialUseError} (ht : ToldBy h e) (more : History T E) : ToldBy (h ++ more) e := by
  intro he
  obtain ⟨refreshToken, hmem⟩ := ht he
  exact ⟨refreshToken, List.mem_append_left _ hmem⟩

theorem Tells.of_ne {α : Type} {x : Except CredentialUseError α} (hx : x ≠ .error .reauthenticationRequired) : Tells h x := by
  intro e he hreauth
  subst hreauth
  exact absurd he hx

/-- Any request may be made. -/
abbrev anyAuth : Contract Request (Answer T E) := .free fun _ _ => True

theorem renewableRecord_ne (read : Except StoreError (Option Bytes)) :
    renewableRecord S read ≠ .error .reauthenticationRequired := by
  intro h
  rcases read with e | _ | b
  · cases h
  · cases h
  · cases hrecord : CredentialRecord.deserializeStructural S b with
    | error e => cases e <;> simp [renewableRecord, Except.mapError, okOr, bind, Except.bind, hrecord] at h
    | ok record => simp [renewableRecord, Except.mapError, okOr, bind, Except.bind, hrecord, pure, Except.pure] at h

theorem refreshedRecord_ne {record : CredentialRecord} {response : RefreshResponse} {now : UInt64} :
    refreshedRecord S record response now ≠ .error .reauthenticationRequired := by
  intro h
  rcases bind_error_iff.mp h with h | ⟨replacement, -, h⟩
  · exact absurd h (mapError_ne fun _ => nofun)
  · rcases bind_error_iff.mp h with h | ⟨replacementBytes, -, h⟩
    · exact absurd h (mapError_ne fun _ => nofun)
    · cases h

theorem tells_bind {α β : Type} {p : Call T E CredentialUseError α} {f : α → Call T E CredentialUseError β}
    (hp : p.run.Meets anyAuth Tells h) (hf : ∀ h a, (f a).run.Meets anyAuth Tells h) :
    (p >>= f).run.Meets (anyAuth (T := T) (E := E)) Tells h := by
  refine meets_bind hp (fun h e he e' he' => ?_) fun h a _ => hf h a
  cases he'
  exact he e rfl

theorem readRenewableRecord_tells : (readRenewableRecord S).run.Meets (anyAuth (T := T) (E := E)) Tells h :=
  meets_ask_bind.mpr ⟨trivial, fun read _ => meets_exit.mpr (.of_ne (renewableRecord_ne read))⟩

theorem refreshAndReplace_tells {record : CredentialRecord} :
    (refreshAndReplace S record).run.Meets (anyAuth (T := T) (E := E)) Tells h := by
  refine meets_ask_bind.mpr ⟨trivial, fun refreshed _ => ?_⟩
  cases refreshed with
  | error e =>
    intro e' he' hreauth
    subst hreauth
    cases e with
    | reauthenticationRequired => exact ⟨record.refreshToken, List.mem_concat_self⟩
    | unavailable => cases he'
  | ok response =>
    refine meets_ask_bind.mpr ⟨trivial, fun now _ => ?_⟩
    refine meets_exit_bind.mpr ⟨fun e he => ?_, fun replacement _ => ?_⟩
    · exact Tells.of_ne (he ▸ refreshedRecord_ne)
    · refine meets_ask_bind.mpr ⟨trivial, fun replaced _ => ?_⟩
      cases replaced with
      | error _ => exact Tells.of_ne nofun
      | ok _ => exact Tells.of_ne nofun

theorem withRefreshLock_tells {α : Type} {body : Call T E CredentialUseError α} (hbody : ∀ h, body.run.Meets anyAuth Tells h) :
    (withRefreshLock body).run.Meets (anyAuth (T := T) (E := E)) Tells h := by
  refine meets_withRefreshLock trivial (fun e => Tells.of_ne ?_) ((hbody _).mono fun h x hx => ⟨trivial, fun e he => (hx e he).append _⟩)
  cases e <;> nofun

theorem proactive_tells {b : Bytes} {record : CredentialRecord} :
    (proactive S b record).run.Meets (anyAuth (T := T) (E := E)) Tells h := by
  refine meets_ask_bind.mpr ⟨trivial, fun now _ => ?_⟩
  split
  · refine withRefreshLock_tells fun h => tells_bind readRenewableRecord_tells fun h reread => ?_
    dsimp only
    split
    · exact Tells.of_ne nofun
    · exact tells_bind refreshAndReplace_tells fun h replaced => Tells.of_ne nofun
  · exact Tells.of_ne nofun

theorem reactive_tells {b : Bytes} {record : CredentialRecord} {contacted : Bool} :
    (reactive S b record contacted).run.Meets (anyAuth (T := T) (E := E)) Tells h := by
  refine withRefreshLock_tells fun h => tells_bind readRenewableRecord_tells fun h reread => ?_
  dsimp only
  split
  · exact Tells.of_ne nofun
  · split
    · exact Tells.of_ne nofun
    · exact tells_bind refreshAndReplace_tells fun h replaced => Tells.of_ne nofun

theorem withRenewable_tells :
    (withRenewableAuthorizedCredentialFrom S isUnauthorized).run.Meets (anyAuth (T := T) (E := E)) Tells h := by
  refine tells_bind readRenewableRecord_tells fun h attempted => ?_
  refine tells_bind proactive_tells fun h proactive => ?_
  refine meets_ask_bind.mpr ⟨trivial, fun a _ => ?_⟩
  cases a with
  | ok value => exact Tells.of_ne nofun
  | error e =>
    change Program.Meets _ _ _ (if !isUnauthorized e then _ else _ : Call T E CredentialUseError (Except E T)).run
    split
    · exact Tells.of_ne nofun
    · refine tells_bind reactive_tells fun h replayed => ?_
      cases replayed with
      | none => exact Tells.of_ne nofun
      | some record => exact meets_ask.mpr ⟨trivial, fun a _ => Tells.of_ne nofun⟩

/-- **A use over the wire.** In every run of a use, up to any point and
whatever it is answered: whatever goes over the wire goes under the lock, right
after the record was re-read, to the token endpoint, with that record's refresh
token and once at most; what is stored is the record that was re-read under the
lock that is still held, with what the endpoint has granted for its token in a
body that was read to its end; and the user is sent to log in again only where
the endpoint has refused the token. -/
theorem renewable_wire {tr : WireHistory T E} {q} (hf : (renewableOverWire S config isUnauthorized).Follows tr q) :
    (∀ pre e post, tr = pre ++ e :: post → wireGuar S config pre e.1) ∧
      (q = .ret ((), .error .reauthenticationRequired) → ∃ refreshToken, Refused S config refreshToken (wired tr)) := by
  have hcall := ((withRenewable_meets (T := T) S isUnauthorized).and_free withRenewable_tells).weaken fun h r hguar => hguar.1.2
  have hmeets := interpret_overWire_meets config hcall
  refine ⟨fun pre e post he => ?_, fun hq => ?_⟩
  · subst he
    exact (hmeets.guar_free hf).1
  · subst hq
    obtain ⟨h, hc, -, htold⟩ := Program.meets_ret.mp (hmeets.follows_free hf)
    obtain ⟨refreshToken, hmem⟩ := htold _ rfl rfl
    exact ⟨refreshToken, hc.concluded refreshToken _ hmem⟩

end

/-! ## A token that is refused -/

/-- A due credential whose refresh the endpoint answers with 401. -/
def refusedExchange : HttpHistory :=
  [⟨.build RefreshConfig.production.connectTimeout RefreshConfig.production.requestTimeout, .ok ()⟩, ⟨.elapsed, (0 : Nat)⟩,
    ⟨.post tokenEndpoint "application/json" (Json.render (refreshRequest sampleRecord.refreshToken)), .ok ⟨401, none⟩⟩,
    ⟨.elapsed, (0 : Nat)⟩]

theorem refusedExchange_follows : (requestRefresh serdeJson .production sampleRecord.refreshToken).run.Follows refusedExchange
    (.ret (.error .reauthenticationRequired)) := .cons (.cons (.cons (.cons .nil)))

def refusedUse (b : Bytes) (record : CredentialRecord) (now : UInt64) : History Unit Unit :=
  [⟨.read, .ok (some b)⟩, ⟨.unixSeconds, now⟩, ⟨.acquire, .ok ()⟩, ⟨.read, .ok (some b)⟩,
    ⟨.refresh record.refreshToken, .error .reauthenticationRequired⟩, ⟨.release, ()⟩]

theorem refusedUse_follows {S : SerdeJson} {b : Bytes} {record : CredentialRecord} {now : UInt64}
    (hd : CredentialRecord.deserializeStructural S b = .ok record) (hdue : record.refreshDue now = true) :
    (withRenewableAuthorizedCredentialFrom S fun _ => true).run.Follows (refusedUse b record now)
      (.ret (.error .reauthenticationRequired)) := by
  have hproactive : (proactive (T := Unit) (E := Unit) S b record).run.Follows (refusedUse b record now).tail
      (.ret (.error .reauthenticationRequired)) := by
    refine follows_ask_bind ?_
    rw [if_pos hdue]
    refine withRefreshLock_follows (l := [⟨.read, .ok (some b)⟩] ++ [⟨.refresh record.refreshToken, .error .reauthenticationRequired⟩])
      (follows_bind (readRenewableRecord_follows hd) ?_)
    simp only [bne_self_eq_false, Bool.false_eq_true, if_false]
    exact .cons .nil
  exact follows_bind (readRenewableRecord_follows hd) (hproactive.bind .nil)

/-- The same use, over the wire. -/
def refusedOverWire : WireHistory Unit Unit :=
  [⟨.call .read, .ok (some (Json.render sampleRecord.toJson))⟩] ++ ([⟨.call .unixSeconds, (1000 : UInt64)⟩] ++
    ([⟨.call .acquire, .ok ()⟩] ++ ([⟨.call .read, .ok (some (Json.render sampleRecord.toJson))⟩] ++
      (refusedExchange.map (fun e => ⟨.http e.1, e.2⟩) ++ ([⟨.call .release, ()⟩] ++ [])))))

theorem refusedOverWire_follows : (renewableOverWire serdeJson .production fun _ => true).Follows refusedOverWire
    (.ret ((), .error .reauthenticationRequired)) := by
  have hrefresh : (overWire (T := Unit) (E := Unit) serdeJson .production () (.refresh sampleRecord.refreshToken)).Follows
      (refusedExchange.map fun e => ⟨.http e.1, e.2⟩) (.ret ((), .error .reauthenticationRequired)) := by
    have hlift : (Program.lift WireRequest.http (requestRefresh serdeJson .production sampleRecord.refreshToken).run :
        Program WireRequest (WireAnswer Unit Unit) _).Follows _ _ := Program.Follows.lift refusedExchange_follows
    exact hlift.bind_ret
  exact (refusedUse_follows sample_stored sample_due).interpret (.cons (.cons .nil) (.cons (.cons .nil)
    (.cons (.cons .nil) (.cons (.cons .nil) (.cons hrefresh (.cons (.cons .nil) .nil))))))

/-! ## A token that is spent -/

/-- A body that comes in one read, and the read that finds its end. -/
def readAtOnce (body : { bytes : Bytes // bytes.length ≤ bufferSize }) : HttpHistory :=
  [⟨.elapsed, (0 : Nat)⟩, ⟨.read bufferSize, .ok body⟩, ⟨.elapsed, (0 : Nat)⟩, ⟨.elapsed, (0 : Nat)⟩,
    ⟨.read bufferSize, .ok ⟨[], Nat.zero_le _⟩⟩, ⟨.elapsed, (0 : Nat)⟩]

theorem checkBudget_bind_follows {α : Type} {config : RefreshConfig} (hbudget : 0 < config.elapsedBudget)
    {f : Unit → Http.Call RefreshError α} {tr q} (h : (f ()).run.Follows tr q) :
    (checkBudget config >>= f).run.Follows (⟨.elapsed, (0 : Nat)⟩ :: tr) q := by
  have hintime : rejectIf (decide ((0 : Nat) ≥ config.elapsedBudget)) RefreshError.unavailable = .ok () := by
    rw [decide_eq_false (Nat.not_le.mpr hbudget), rejectIf_false]
  have hchecked : (checkBudget config).run.Follows [⟨.elapsed, (0 : Nat)⟩] (.ret (.ok ())) :=
    follows_ask_bind (hintime ▸ .nil)
  exact follows_bind hchecked h

theorem read_bind_follows {ε α : Type} {failed : ε} {size : Nat} {bytes : { bytes : Bytes // bytes.length ≤ size }}
    {f : Bytes → Http.Call ε α} {tr q} (h : (f bytes.val).run.Follows tr q) :
    (Http.read failed size >>= f).run.Follows (⟨.read size, .ok bytes⟩ :: tr) q :=
  follows_bind (.cons .nil : (Http.read failed size).run.Follows [⟨.read size, .ok bytes⟩] (.ret (.ok bytes.val))) h

theorem readLoop_follows {config : RefreshConfig} (hbudget : 0 < config.elapsedBudget) (reads : Nat)
    {body : { bytes : Bytes // bytes.length ≤ bufferSize }} (hne : body.val ≠ []) (hfits : body.val.length ≤ config.responseBodyLimit) :
    (readLoop config (reads + 2) []).run.Follows (readAtOnce body) (.ret (.ok body.val)) := by
  have hlimit : rejectIf (decide (([] : Bytes).length + body.val.length > config.responseBodyLimit)) RefreshError.unavailable =
      .ok () := by
    rw [decide_eq_false (by simpa using hfits), rejectIf_false]
  unfold readLoop
  refine checkBudget_bind_follows hbudget (read_bind_follows (checkBudget_bind_follows hbudget ?_))
  rw [if_neg hne]
  refine follows_exit_bind hlimit ?_
  unfold readLoop
  exact checkBudget_bind_follows hbudget (read_bind_follows (checkBudget_bind_follows hbudget .nil))

def grantedBody : Bytes :=
  Json.render (.obj [("access_token", .str "b.e30.b"), ("refresh_token", .str "second"), ("expires_in", .num (.posInt 3600))])

theorem grantedBody_fits : grantedBody.length ≤ bufferSize := by decide +kernel

/-- The exchange of a refresh token that is granted. -/
def grantedExchange : HttpHistory :=
  ⟨.build RefreshConfig.production.connectTimeout RefreshConfig.production.requestTimeout, .ok ()⟩ :: ⟨.elapsed, (0 : Nat)⟩ ::
    ⟨.post tokenEndpoint "application/json" (Json.render (refreshRequest sampleRecord.refreshToken)), .ok ⟨200, none⟩⟩ ::
    ⟨.elapsed, (0 : Nat)⟩ :: (readAtOnce ⟨grantedBody, grantedBody_fits⟩ ++ [])

theorem grantedExchange_follows : (requestRefresh serdeJson .production sampleRecord.refreshToken).run.Follows grantedExchange
    (.ret (.ok sampleResponse)) := by
  have hwire : serdeJson.wireRefreshResponse grantedBody = some sampleResponse := by decide +kernel
  have hne : grantedBody ≠ [] := by decide +kernel
  have hfits : grantedBody.length ≤ RefreshConfig.production.responseBodyLimit := by decide +kernel
  have hbuild : (Http.buildClient RefreshError.unavailable RefreshConfig.production.connectTimeout
      RefreshConfig.production.requestTimeout).run.Follows [⟨.build _ _, .ok ()⟩] (.ret (.ok ())) := .cons .nil
  have hpost : (Http.post RefreshError.unavailable tokenEndpoint "application/json"
      (Json.render (refreshRequest sampleRecord.refreshToken))).run.Follows [⟨.post _ _ _, .ok ⟨200, none⟩⟩] (.ret (.ok ⟨200, none⟩)) :=
    .cons .nil
  have hread : (readBounded .production ⟨200, none⟩).run.Follows (readAtOnce ⟨grantedBody, grantedBody_fits⟩)
      (.ret (.ok grantedBody)) :=
    follows_exit_bind rfl (readLoop_follows (by decide) (RefreshConfig.production.responseBodyLimit - 1) hne hfits)
  refine follows_bind hbuild (checkBudget_bind_follows (by decide) (follows_bind hpost (checkBudget_bind_follows (by decide) ?_)))
  refine follows_exit_bind rfl (follows_bind hread (follows_exit_bind rfl ?_))
  rw [hwire]
  exact .nil

/-- A due credential whose token is spent, up to the record that is stored. -/
def grantedOverWire : WireHistory Unit Unit :=
  [⟨.call .read, .ok (some (Json.render sampleRecord.toJson))⟩] ++ ([⟨.call .unixSeconds, (1000 : UInt64)⟩] ++
    ([⟨.call .acquire, .ok ()⟩] ++ ([⟨.call .read, .ok (some (Json.render sampleRecord.toJson))⟩] ++
      (grantedExchange.map (fun e => ⟨.http e.1, e.2⟩) ++ ([⟨.call .unixSeconds, (1000 : UInt64)⟩] ++
        ([⟨.call (.replace (Json.render sampleRefreshed.toJson)), .ok ()⟩] ++ ([⟨.call .release, ()⟩] ++
          ([⟨.call (.operation (authorizedCredential sampleRefreshed)), .ok ()⟩] ++ []))))))))

theorem grantedOverWire_follows : (renewableOverWire serdeJson .production fun _ => true).Follows grantedOverWire
    (.ret ((), .ok (.ok ()))) := by
  have hrefresh : (overWire (T := Unit) (E := Unit) serdeJson .production () (.refresh sampleRecord.refreshToken)).Follows
      (grantedExchange.map fun e => ⟨.http e.1, e.2⟩) (.ret ((), .ok sampleResponse)) := by
    have hlift : (Program.lift WireRequest.http (requestRefresh serdeJson .production sampleRecord.refreshToken).run :
        Program WireRequest (WireAnswer Unit Unit) _).Follows _ _ := Program.Follows.lift grantedExchange_follows
    exact hlift.bind_ret
  exact (renewable_refreshes (fun _ => true) sample_stored sample_due sample_applyRefresh rfl ()).interpret
    (.cons (.cons .nil) (.cons (.cons .nil) (.cons (.cons .nil) (.cons (.cons .nil) (.cons hrefresh (.cons (.cons .nil)
      (.cons (.cons .nil) (.cons (.cons .nil) (.cons (.cons .nil) .nil)))))))))

theorem renewable_wire_sample :
    (∃ refreshToken, Refused serdeJson .production refreshToken (wired refusedOverWire)) ∧
    ∃ pre post, grantedOverWire = pre ++ ⟨.call (.replace (Json.render sampleRefreshed.toJson)), .ok ()⟩ :: post ∧
      wireGuar serdeJson .production pre (.call (.replace (Json.render sampleRefreshed.toJson))) :=
  ⟨(renewable_wire refusedOverWire_follows).2 rfl, _, _, rfl,
    (renewable_wire grantedOverWire_follows).1 (grantedOverWire.take 15) ⟨.call (.replace _), .ok ()⟩ _ rfl⟩

end AgentHarness.Auth
