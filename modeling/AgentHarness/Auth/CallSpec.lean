/-
What one `with_renewable_authorized_credential_from` call does, whatever the
world answers: the contract `callContract` says of each request the call
makes what its history was, and `withRenewable_meets` is the one symbolic
execution of the code. What the call does to the store and how often it
does anything follow from the contract alone.
-/
import AgentHarness.Auth.Calls

namespace AgentHarness.Auth

open Text Except Interact

variable {T E ε α β : Type}

abbrev History (T E : Type) := List (Event (Answer T E))

/-! ## Reading a history -/

inductive Kind where
  | read | replace | delete | clock | acquire | release | refresh | operation | other
  deriving DecidableEq, Repr

def Request.kind : Request → Kind
  | .read => .read
  | .replace _ => .replace
  | .delete => .delete
  | .unixSeconds => .clock
  | .acquire => .acquire
  | .release => .release
  | .refresh _ => .refresh
  | .operation _ => .operation
  | .bindCallback | .openBrowser | .waitCallback | .exchangeCode _ => .other

/-- How often a kind of request was made. -/
def count (k : Kind) (h : History T E) : Nat := h.countP fun e => e.1.kind = k

@[simp] theorem count_nil (k : Kind) : count k ([] : History T E) = 0 := rfl

@[simp] theorem count_append (k : Kind) (h h' : History T E) : count k (h ++ h') = count k h + count k h' :=
  List.countP_append

@[simp] theorem count_cons (k : Kind) (e : Event (Answer T E)) (h : History T E) :
    count k (e :: h) = count k h + if e.1.kind = k then 1 else 0 := by simp [count, List.countP_cons]

def noteRecord (latest : Option Bytes) : Event (Answer T E) → Option Bytes
  | ⟨.read, .ok (some b)⟩ => some b
  | ⟨.replace b, .ok _⟩ => some b
  | _ => latest

/-- The last record bytes the store returned, or accepted in a replace. -/
def latestRecord (h : History T E) : Option Bytes := h.foldl noteRecord none

def noteLock (held : Bool) : Event (Answer T E) → Bool
  | ⟨.acquire, .ok _⟩ => true
  | ⟨.release, _⟩ => false
  | _ => held

/-- The refresh lock was acquired and not released since. -/
def holdsLock (h : History T E) : Bool := h.foldl noteLock false

def operationResult : Event (Answer T E) → Option (Except E T)
  | ⟨.operation _, x⟩ => some x
  | _ => none

/-- What the first operation returned. -/
def firstResult (h : History T E) : Option (Except E T) := h.findSome? operationResult

@[simp] theorem latestRecord_snoc (h : History T E) (e : Event (Answer T E)) :
    latestRecord (h ++ [e]) = noteRecord (latestRecord h) e := by simp [latestRecord]

@[simp] theorem holdsLock_snoc (h : History T E) (e : Event (Answer T E)) :
    holdsLock (h ++ [e]) = noteLock (holdsLock h) e := by simp [holdsLock]

@[simp] theorem firstResult_snoc (h : History T E) (e : Event (Answer T E)) :
    firstResult (h ++ [e]) = (firstResult h).or (operationResult e) := by
  simp [firstResult, List.findSome?_append]

theorem firstResult_eq_none {h : History T E} : firstResult h = none ↔ count .operation h = 0 := by
  simp only [firstResult, List.findSome?_eq_none_iff, count, List.countP_eq_zero, decide_eq_true_eq]
  refine forall₂_congr fun e _ => ?_
  obtain ⟨r, a⟩ := e
  cases r <;> simp [operationResult, Request.kind]

/-! ## The contract -/

section
variable (S : SerdeJson)

/-- The call has just re-read `b` under the lock, a record `r`. -/
def RereadUnderLock (h : History T E) (b : Bytes) (r : CredentialRecord) : Prop :=
  (∃ h₀, h = h₀ ++ [⟨.acquire, .ok ()⟩, ⟨.read, .ok (some b)⟩]) ∧
    CredentialRecord.deserializeStructural S b = .ok r

/-- The call has just re-read a record under the lock and refreshed it, and
`b'` is what the refreshed record is written as. -/
def RefreshedUnderLock (h : History T E) (b' : Bytes) : Prop :=
  ∃ h₀ b r response now r',
    h = h₀ ++ [⟨.acquire, .ok ()⟩, ⟨.read, .ok (some b)⟩, ⟨.refresh r.refreshToken, .ok response⟩,
      ⟨.unixSeconds, now⟩] ∧
    CredentialRecord.deserializeStructural S b = .ok r ∧ r.applyRefresh S response now = .ok r' ∧
    r'.serialize S = .ok b'

/-- The first operation was unauthorized, and `b` differs from the bytes it
was attempted with or was written since. -/
def Replays (isUnauthorized : E → Bool) (h : History T E) (b : Bytes) : Prop :=
  ∃ h₁ c e h₂ b₁, h = h₁ ++ ⟨.operation c, .error e⟩ :: h₂ ∧ count .operation h₁ = 0 ∧
    count .operation h₂ = 0 ∧ isUnauthorized e = true ∧ latestRecord h₁ = some b₁ ∧
    (b ≠ b₁ ∨ ⟨.replace b, .ok ()⟩ ∈ h₂)

/-- A first result the call has nothing to do about. -/
def Settles (isUnauthorized : E → Bool) (x : Except E T) : Prop := ∀ e, x = .error e → isUnauthorized e = false

/-- What the history must be for each request the call makes. -/
def requestGuar (isUnauthorized : E → Bool) (h : History T E) : Request → Prop
  | .read => count .read h < 3
  | .replace b => holdsLock h = true ∧ count .replace h = 0 ∧ count .refresh h = 1 ∧ RefreshedUnderLock S h b
  | .unixSeconds => True
  | .acquire => holdsLock h = false ∧ count .acquire h < 2
  | .release => holdsLock h = true
  | .refresh t => holdsLock h = true ∧ count .refresh h = 0 ∧
      ∃ b r, RereadUnderLock S h b r ∧ t = r.refreshToken
  | .operation c => holdsLock h = false ∧
      ∃ b r, latestRecord h = some b ∧ CredentialRecord.deserializeStructural S b = .ok r ∧
        c = authorizedCredential r ∧ (count .operation h = 0 ∨ Replays isUnauthorized h b)
  | .delete | .bindCallback | .openBrowser | .waitCallback | .exchangeCode _ => False

/-- Nothing is relied on. Each request has the history `requestGuar` says,
and none is made once the first result settles the call. -/
def callContract (isUnauthorized : E → Bool) : Contract Request (Answer T E) :=
  .free fun h r => (∀ x, firstResult h = some x → ¬Settles isUnauthorized x) ∧ requestGuar S isUnauthorized h r

/-- The lock is released by the time the call returns, and a first result
that settles the call is what it returns. -/
def CallReturns (isUnauthorized : E → Bool) (h : History T E) (res : Except CredentialUseError (Except E T)) : Prop :=
  holdsLock h = false ∧ ∀ x, firstResult h = some x → Settles isUnauthorized x → res = .ok x

end

/-! ## Symbolic execution of calls -/

/-- A body run under the lock: the guard is dropped at its end, so the body
has to leave the lock held. -/
theorem meets_withRefreshLock {C : Contract Request (Answer T E)}
    {Q : History T E → Except CredentialUseError α → Prop} {h : History T E} {body : Call T E CredentialUseError α}
    (ha : C.guar h .acquire) (hfail : ∀ e, Q (h ++ [⟨.acquire, .error e⟩]) (.error (mapRefreshLockError e)))
    (hbody : Program.Meets C (fun h x => C.guar h .release ∧ Q (h ++ [⟨.release, ()⟩]) x)
      (h ++ [⟨.acquire, .ok ()⟩]) body.run) :
    Program.Meets C Q h (withRefreshLock body).run := by
  refine meets_ask_bind.mpr ⟨ha, fun a _ => ?_⟩
  cases a with
  | error e => exact hfail e
  | ok u =>
    refine meets_exit_bind.mpr ⟨fun e he => (nomatch he), fun _ _ => ?_⟩
    exact meets_lift_bind hbody fun h' x hx => meets_ask_bind.mpr ⟨hx.1, fun _ _ => meets_exit.mpr hx.2⟩

/-! ## The renewable call meets its contract -/

section
variable {S : SerdeJson} {isUnauthorized : E → Bool} {h : History T E} {b : Bytes} {r : CredentialRecord}

theorem renewableRecord_ok_iff {a : Except StoreError (Option Bytes)} {x : Bytes × CredentialRecord} :
    renewableRecord S a = .ok x ↔ a = .ok (some x.1) ∧ CredentialRecord.deserializeStructural S x.1 = .ok x.2 := by
  obtain ⟨b, r⟩ := x
  rcases a with e | _ | b'
  · simp [renewableRecord, Except.mapError, bind, Except.bind]
  · simp [renewableRecord, Except.mapError, bind, Except.bind, okOr]
  · cases hd : CredentialRecord.deserializeStructural S b' with
    | error e =>
      simp only [renewableRecord, Except.mapError, bind, Except.bind, okOr, hd]
      constructor
      · intro hx
        cases hx
      · intro h
        cases h.1
        have hr := hd.symm.trans h.2
        cases hr
    | ok r' =>
      simp only [renewableRecord, Except.mapError, bind, Except.bind, okOr, hd, pure, Except.pure,
        Except.ok.injEq, Prod.mk.injEq, Option.some.injEq]
      constructor
      · intro h
        obtain ⟨rfl, rfl⟩ := h
        exact ⟨rfl, hd⟩
      · intro h
        obtain ⟨rfl, hr⟩ := h
        exact ⟨rfl, Except.ok.inj (hd.symm.trans hr)⟩

theorem refreshedRecord_ok {response : RefreshResponse} {now : UInt64} {x : Bytes × CredentialRecord}
    (hx : refreshedRecord S r response now = .ok x) :
    r.applyRefresh S response now = .ok x.2 ∧ x.2.serialize S = .ok x.1 := by
  unfold refreshedRecord at hx
  cases ha : r.applyRefresh S response now with
  | error e => simp [ha, Except.mapError, bind, Except.bind] at hx
  | ok r' =>
    cases hs : r'.serialize S with
    | error e => simp [ha, hs, Except.mapError, bind, Except.bind] at hx
    | ok b' =>
      simp only [ha, hs, Except.mapError, bind, Except.bind, pure, Except.pure, Except.ok.injEq] at hx
      subst hx
      exact ⟨rfl, hs⟩

/-- No result so far settles the call. -/
def Unsettled (isUnauthorized : E → Bool) (h : History T E) : Prop :=
  ∀ x, firstResult h = some x → ¬Settles isUnauthorized x

theorem Unsettled.of_none (hn : count .operation h = 0) : Unsettled isUnauthorized h := by
  intro x hx
  rw [firstResult_eq_none.mpr hn] at hx
  exact nomatch hx

theorem Unsettled.snoc {e : Event (Answer T E)} (hu : Unsettled isUnauthorized h) (he : operationResult e = none) :
    Unsettled isUnauthorized (h ++ [e]) := by
  intro x hx
  rw [firstResult_snoc, he, Option.or_none] at hx
  exact hu x hx

theorem readRenewableRecord_meets {Q : History T E → Except CredentialUseError (Bytes × CredentialRecord) → Prop}
    (hu : Unsettled isUnauthorized h) (hr : count .read h < 3)
    (herr : ∀ a e, Q (h ++ [⟨.read, a⟩]) (.error e))
    (hok : ∀ b r, CredentialRecord.deserializeStructural S b = .ok r → Q (h ++ [⟨.read, .ok (some b)⟩]) (.ok (b, r))) :
    (readRenewableRecord S).run.Meets (callContract S isUnauthorized) Q h := by
  refine meets_ask_bind.mpr ⟨⟨hu, hr⟩, fun a _ => meets_exit.mpr ?_⟩
  cases hx : renewableRecord S a with
  | error e => exact herr a e
  | ok x =>
    obtain ⟨rfl, hd⟩ := renewableRecord_ok_iff.mp hx
    exact hok x.1 x.2 hd

/-- The lock is held, and no result so far settles the call. -/
structure UnderLock (isUnauthorized : E → Bool) (h : History T E) : Prop where
  held : holdsLock h = true
  unsettled : Unsettled isUnauthorized h

theorem UnderLock.snoc {e : Event (Answer T E)} (hl : UnderLock isUnauthorized h)
    (he : operationResult e = none) (hk : noteLock true e = true) : UnderLock isUnauthorized (h ++ [e]) where
  held := by rw [holdsLock_snoc, hl.held, hk]
  unsettled := hl.unsettled.snoc he

/-- **Refresh and persist**: a result means a refresh, the clock and a
replace that succeeded, in this order and nothing else. -/
theorem refreshAndReplace_meets {Q : History T E → Except CredentialUseError (Bytes × CredentialRecord) → Prop}
    (hl : UnderLock isUnauthorized h) (hr : RereadUnderLock S h b r)
    (hf : count .refresh h = 0) (hp : count .replace h = 0)
    (herr : ∀ h' e, UnderLock isUnauthorized h' → Q h' (.error e))
    (hok : ∀ response now b' r', CredentialRecord.deserializeStructural S b' = .ok r' →
      UnderLock isUnauthorized (h ++
        [⟨.refresh r.refreshToken, .ok response⟩, ⟨.unixSeconds, now⟩, ⟨.replace b', .ok ()⟩]) →
      Q (h ++ [⟨.refresh r.refreshToken, .ok response⟩, ⟨.unixSeconds, now⟩, ⟨.replace b', .ok ()⟩]) (.ok (b', r'))) :
    (refreshAndReplace S r).run.Meets (callContract S isUnauthorized) Q h := by
  refine meets_ask_bind.mpr ⟨⟨hl.unsettled, hl.held, hf, b, r, hr, rfl⟩, fun a _ => ?_⟩
  have hl₁ := hl.snoc (e := ⟨.refresh r.refreshToken, a⟩) rfl rfl
  refine meets_exit_bind.mpr ⟨fun e _ => herr _ e hl₁, fun response ha => ?_⟩
  cases a with
  | error e => exact nomatch ha
  | ok response' =>
    cases ha
    refine meets_ask_bind.mpr ⟨⟨hl₁.unsettled, trivial⟩, fun now _ => ?_⟩
    have hl₂ := hl₁.snoc (e := ⟨.unixSeconds, now⟩) rfl rfl
    refine meets_exit_bind.mpr ⟨fun e _ => herr _ e hl₂, fun ⟨b', r'⟩ hx => ?_⟩
    obtain ⟨happly, hser⟩ := refreshedRecord_ok hx
    obtain ⟨⟨h₀, rfl⟩, hd⟩ := hr
    have hw : RefreshedUnderLock S (h₀ ++ [⟨.acquire, .ok ()⟩, ⟨.read, .ok (some b)⟩] ++
        [⟨.refresh r.refreshToken, .ok response⟩] ++ [⟨.unixSeconds, now⟩]) b' :=
      ⟨h₀, b, r, response, now, r', by simp, hd, happly, hser⟩
    refine meets_ask_bind.mpr ⟨⟨hl₂.unsettled, hl₂.held, ?_, ?_, hw⟩, fun a _ => ?_⟩
    · simpa [Request.kind] using hp
    · simpa [Request.kind] using hf
    have hl₃ := hl₂.snoc (e := ⟨.replace b', a⟩) rfl rfl
    refine meets_exit_bind.mpr ⟨fun e _ => herr _ e hl₃, fun _ ha => ?_⟩
    cases a with
    | error e => exact nomatch ha
    | ok u =>
      have hv := CredentialRecord.deserializeStructural_refreshed
        (CredentialRecord.deserializeStructural_ok_iff.mp hd).2.2 happly hser
      simpa using hok response now b' r' hv (by simpa using hl₃)

/-- The record the operation is about to be attempted with. -/
structure Ready (S : SerdeJson) (h : History T E) (b : Bytes) (r : CredentialRecord)
    (contactedRefreshEndpoint : Bool) : Prop where
  latest : latestRecord h = some b
  valid : CredentialRecord.deserializeStructural S b = .ok r
  unlocked : holdsLock h = false
  first : count .operation h = 0
  reads : count .read h ≤ 2
  acquires : count .acquire h ≤ 1
  refreshes : contactedRefreshEndpoint = false → count .refresh h = 0
  replaces : contactedRefreshEndpoint = false → count .replace h = 0

theorem callReturns_error {e : CredentialUseError} (hl : holdsLock h = false) (hu : Unsettled isUnauthorized h) :
    CallReturns isUnauthorized h (.error e) := ⟨hl, fun x hx hs => absurd hs (hu x hx)⟩

/-- What the guard's drop leaves of a body that failed. -/
theorem UnderLock.callReturns {e : CredentialUseError} (hl : UnderLock isUnauthorized h) :
    CallReturns isUnauthorized (h ++ [⟨.release, ()⟩]) (.error e) :=
  callReturns_error (by rw [holdsLock_snoc]; rfl) (hl.unsettled.snoc rfl)

/-- The locked re-read both paths begin with: whatever fails below the lock
is an error with the lock released. -/
theorem lockedReread_meets {Q : History T E → Except CredentialUseError α → Prop}
    {f : Bytes × CredentialRecord → Call T E CredentialUseError α}
    (hl : holdsLock h = false) (hu : Unsettled isUnauthorized h)
    (hreads : count .read h < 3) (hacq : count .acquire h < 2)
    (herr : ∀ h' e, holdsLock h' = false → Unsettled isUnauthorized h' → Q h' (.error e))
    (hok : ∀ b r, CredentialRecord.deserializeStructural S b = .ok r →
      UnderLock isUnauthorized (h ++ [⟨.acquire, .ok ()⟩, ⟨.read, .ok (some b)⟩]) →
      (f (b, r)).run.Meets (callContract S isUnauthorized)
        (fun h' x => UnderLock isUnauthorized h' ∧ Q (h' ++ [⟨.release, ()⟩]) x)
        (h ++ [⟨.acquire, .ok ()⟩, ⟨.read, .ok (some b)⟩])) :
    (withRefreshLock (readRenewableRecord S >>= f)).run.Meets (callContract S isUnauthorized) Q h := by
  refine meets_withRefreshLock ⟨hu, hl, hacq⟩ (fun e => herr _ _ ?_ (hu.snoc rfl)) ?_
  · rw [holdsLock_snoc, hl]; rfl
  have hl₁ : UnderLock isUnauthorized (h ++ [⟨.acquire, .ok ()⟩]) := ⟨by rw [holdsLock_snoc]; rfl, hu.snoc rfl⟩
  have hdrop : ∀ h' e, UnderLock isUnauthorized h' → Q (h' ++ [⟨.release, ()⟩]) (.error e) := fun h' e hl' =>
    herr _ e (by rw [holdsLock_snoc]; rfl) (hl'.unsettled.snoc rfl)
  have hread : (readRenewableRecord S).run.Meets (callContract S isUnauthorized)
      (fun h' res => UnderLock isUnauthorized h' ∧ ∀ x, res = .ok x →
        h' = h ++ [⟨.acquire, .ok ()⟩, ⟨.read, .ok (some x.1)⟩] ∧
        CredentialRecord.deserializeStructural S x.1 = .ok x.2)
      (h ++ [⟨.acquire, .ok ()⟩]) := by
    refine readRenewableRecord_meets hl₁.unsettled (by simpa [Request.kind] using hreads)
      (fun a e => ⟨hl₁.snoc rfl rfl, fun _ hx => (nomatch hx)⟩) fun b r hd => ⟨hl₁.snoc rfl rfl, fun x hx => ?_⟩
    cases hx
    exact ⟨by simp, hd⟩
  refine meets_bind hread (fun h' e hx => ⟨⟨hx.1.unsettled, hx.1.held⟩, hdrop h' e hx.1⟩) fun h' x hx => ?_
  obtain ⟨hl₂, hx⟩ := hx
  obtain ⟨rfl, hd⟩ := hx x rfl
  exact (hok x.1 x.2 hd hl₂).mono fun h' y hy => ⟨⟨hy.1.unsettled, hy.1.held⟩, hy.2⟩

/-- What the proactive path leaves: an operation to attempt, or the call's error. -/
def Attempts (S : SerdeJson) (isUnauthorized : E → Bool) (h : History T E) :
    Except CredentialUseError (Bytes × CredentialRecord × Bool) → Prop
  | .ok (b, r, contactedRefreshEndpoint) => Ready S h b r contactedRefreshEndpoint
  | .error e => CallReturns isUnauthorized h (.error e)

theorem proactive_meets (hr : Ready S h b r false) (hreads : count .read h ≤ 1) (hacq : count .acquire h = 0) :
    (proactive S b r).run.Meets (callContract S isUnauthorized) (Attempts S isUnauthorized) h := by
  have hu : Unsettled isUnauthorized h := .of_none hr.first
  refine meets_ask_bind.mpr ⟨⟨hu, trivial⟩, fun now _ => ?_⟩
  split
  · -- due: everything else is below the lock
    refine lockedReread_meets (by rw [holdsLock_snoc]; exact hr.unlocked) (hu.snoc rfl)
      (by simp [Request.kind]; omega) (by simp [Request.kind, hacq]) (fun h' e => callReturns_error)
      fun b' r' hd hl => ?_
    simp only
    split
    · -- the store has changed: adopt what is there
      refine meets_pure.mpr ⟨hl, ?_⟩
      exact {
        latest := by simp [latestRecord, noteRecord]
        valid := hd
        unlocked := by rw [holdsLock_snoc]; rfl
        first := by simp [Request.kind, hr.first]
        reads := by simp [Request.kind]; omega
        acquires := by simp [Request.kind, hacq]
        refreshes := fun _ => by simp [Request.kind, hr.refreshes]
        replaces := fun _ => by simp [Request.kind, hr.replaces] }
    · rename_i hb
      obtain rfl : b' = b := by simpa using hb
      obtain rfl : r' = r := Except.ok.inj (hd.symm.trans hr.valid)
      refine meets_bind (R := fun h' res => UnderLock isUnauthorized h' ∧ ∀ x, res = .ok x →
          Ready S (h' ++ [⟨.release, ()⟩]) x.1 x.2 true)
        (refreshAndReplace_meets hl ⟨⟨_, rfl⟩, hd⟩ ?_ ?_ (fun h' e hl' => ⟨hl', fun _ hx => (nomatch hx)⟩) ?_)
        (fun h' e hx => ⟨hx.1, hx.1.callReturns⟩)
        fun h' x hx => meets_pure.mpr ⟨hx.1, hx.2 x rfl⟩
      · simp [Request.kind, hr.refreshes]
      · simp [Request.kind, hr.replaces]
      · intro response now b' r' hd' hl'
        refine ⟨hl', fun x hx => ?_⟩
        cases hx
        exact {
          latest := by simp [latestRecord, noteRecord]
          valid := hd'
          unlocked := by rw [holdsLock_snoc]; rfl
          first := by simp [Request.kind, hr.first]
          reads := by simp [Request.kind]; omega
          acquires := by simp [Request.kind, hacq]
          refreshes := fun hc => (nomatch hc)
          replaces := fun hc => (nomatch hc) }
  · refine meets_pure.mpr ?_
    exact {
      latest := by rw [latestRecord_snoc]; exact hr.latest
      valid := hr.valid
      unlocked := by rw [holdsLock_snoc]; exact hr.unlocked
      first := by simp [Request.kind, hr.first]
      reads := by simp [Request.kind, hr.reads]
      acquires := by simp [Request.kind, hr.acquires]
      refreshes := fun _ => by simp [Request.kind, hr.refreshes]
      replaces := fun _ => by simp [Request.kind, hr.replaces] }

theorem Replays.firstResult_ne_none (hr : Replays isUnauthorized h b) : firstResult h ≠ none := by
  obtain ⟨h₁, c, e, h₂, b₁, rfl, -⟩ := hr
  rw [Ne, firstResult_eq_none]
  simp [Request.kind]

/-- What the reactive path leaves: a record to replay the operation with, or
nothing more to do. -/
def Reacts (S : SerdeJson) (isUnauthorized : E → Bool) (h : History T E)
    (res : Except CredentialUseError (Option CredentialRecord)) : Prop :=
  holdsLock h = false ∧ Unsettled isUnauthorized h ∧ ∀ r, res = .ok (some r) → ∃ b, latestRecord h = some b ∧
    CredentialRecord.deserializeStructural S b = .ok r ∧ Replays isUnauthorized h b

theorem reactive_meets {contactedRefreshEndpoint : Bool} {c : AuthorizedCredential} {e : E}
    (hr : Ready S h b r contactedRefreshEndpoint) (he : isUnauthorized e = true) :
    (reactive S b r contactedRefreshEndpoint).run.Meets (callContract S isUnauthorized) (Reacts S isUnauthorized)
      (h ++ [⟨.operation c, .error e⟩]) := by
  have hu : Unsettled isUnauthorized (h ++ [⟨.operation c, .error e⟩]) := by
    intro x hx hs
    rw [firstResult_snoc, firstResult_eq_none.mpr hr.first] at hx
    cases hx
    rw [hs e rfl] at he
    cases he
  have hreads := hr.reads
  have hacq := hr.acquires
  refine lockedReread_meets (by rw [holdsLock_snoc]; exact hr.unlocked) hu (by simp [Request.kind]; omega)
    (by simp [Request.kind]; omega) (fun h' e hl hu => ⟨hl, hu, fun _ hx => by cases hx⟩) fun b' r' hd hl => ?_
  simp only
  split
  · -- another record is there: replay with it
    rename_i hb
    refine meets_pure.mpr ⟨hl, by rw [holdsLock_snoc]; rfl, hl.unsettled.snoc rfl, fun x hx => ?_⟩
    cases hx
    refine ⟨b', by simp [latestRecord, noteRecord], hd, h, c, e,
      [⟨.acquire, .ok ()⟩, ⟨.read, .ok (some b')⟩, ⟨.release, ()⟩], b, by simp, hr.first, rfl, he, hr.latest, .inl ?_⟩
    simpa using hb
  · rename_i hb
    obtain rfl : b' = b := by simpa using hb
    obtain rfl : r' = r := Except.ok.inj (hd.symm.trans hr.valid)
    split
    · exact meets_pure.mpr ⟨hl, by rw [holdsLock_snoc]; rfl, hl.unsettled.snoc rfl, fun _ hx => by cases hx⟩
    · rename_i hc
      have hc : contactedRefreshEndpoint = false := by simpa using hc
      refine meets_bind (R := fun h' res => UnderLock isUnauthorized h' ∧ ∀ x, res = .ok x →
          Reacts S isUnauthorized (h' ++ [⟨.release, ()⟩]) (.ok (some x.2)))
        (refreshAndReplace_meets hl ⟨⟨_, rfl⟩, hd⟩ ?_ ?_ (fun h' e hl' => ⟨hl', fun _ hx => by cases hx⟩) ?_)
        (fun h' e hx => ⟨hx.1, by rw [holdsLock_snoc]; rfl, hx.1.unsettled.snoc rfl, fun _ hx => by cases hx⟩)
        fun h' x hx => meets_pure.mpr ⟨hx.1, hx.2 x rfl⟩
      · simp [Request.kind, hr.refreshes hc]
      · simp [Request.kind, hr.replaces hc]
      · intro response now b₂ r₂ hd₂ hl₂
        refine ⟨hl₂, fun x hx => ?_⟩
        cases hx
        refine ⟨by rw [holdsLock_snoc]; rfl, hl₂.unsettled.snoc rfl, fun x hx => ?_⟩
        cases hx
        exact ⟨b₂, by simp [latestRecord, noteRecord], hd₂, h, c, e,
          [⟨.acquire, .ok ()⟩, ⟨.read, .ok (some b')⟩, ⟨.refresh r'.refreshToken, .ok response⟩,
            ⟨.unixSeconds, now⟩, ⟨.replace b₂, .ok ()⟩, ⟨.release, ()⟩],
          b', by simp, hr.first, rfl, he, hr.latest, .inr (by simp)⟩

/-- **The renewable call meets its contract**, whatever it is answered. -/
theorem withRenewable_meets (S : SerdeJson) (isUnauthorized : E → Bool) :
    (withRenewableAuthorizedCredentialFrom (T := T) S isUnauthorized).run.Meets (callContract S isUnauthorized)
      (CallReturns isUnauthorized) [] := by
  have hread : (readRenewableRecord (T := T) (E := E) S).run.Meets (callContract S isUnauthorized)
      (fun h res => (∀ e, res = .error e → CallReturns isUnauthorized h (.error e)) ∧ ∀ x, res = .ok x →
        Ready S h x.1 x.2 false ∧ count .read h ≤ 1 ∧ count .acquire h = 0) [] := by
    refine readRenewableRecord_meets (.of_none rfl) (by simp) (fun a e => ?_) fun b r hd => ?_
    · refine ⟨fun _ _ => callReturns_error ?_ (.of_none rfl), fun _ hx => (nomatch hx)⟩
      rw [holdsLock_snoc]; rfl
    · refine ⟨fun _ hx => (nomatch hx), fun x hx => ?_⟩
      cases hx
      exact ⟨⟨rfl, hd, rfl, rfl, by simp [Request.kind], by simp [Request.kind], fun _ => rfl, fun _ => rfl⟩,
        by simp [Request.kind], rfl⟩
  refine meets_bind hread (fun h e hx => hx.1 e rfl) fun h x hx => ?_
  obtain ⟨hr, hreads, hacq⟩ := hx.2 x rfl
  refine meets_bind (proactive_meets hr hreads hacq) (fun h e hx => hx) fun h y hy => ?_
  obtain ⟨b, r, contactedRefreshEndpoint⟩ := y
  have hu : Unsettled isUnauthorized h := .of_none hy.first
  refine meets_ask_bind.mpr ⟨⟨hu, hy.unlocked, b, r, hy.latest, hy.valid, rfl, .inl hy.first⟩, fun a _ => ?_⟩
  have hfirst : firstResult (h ++ [⟨.operation (authorizedCredential r), a⟩]) = some a := by
    rw [firstResult_snoc, firstResult_eq_none.mpr hy.first]; rfl
  have hl : holdsLock (h ++ [⟨.operation (authorizedCredential r), a⟩]) = false := by
    rw [holdsLock_snoc]; exact hy.unlocked
  have hreturn : CallReturns isUnauthorized (h ++ [⟨.operation (authorizedCredential r), a⟩]) (.ok a) :=
    ⟨hl, fun x hx _ => by rw [hfirst] at hx; cases hx; rfl⟩
  cases a with
  | ok value => exact meets_pure.mpr hreturn
  | error firstError =>
    simp only
    split
    · exact meets_pure.mpr hreturn
    · rename_i he
      refine meets_bind (reactive_meets hy (by simpa using he)) (fun h e hx => callReturns_error hx.1 hx.2.1)
        fun h' x hx => ?_
      obtain ⟨hl', hu', hreplay⟩ := hx
      cases x with
      | none => exact meets_pure.mpr ⟨hl', fun x hx hs => absurd hs (hu' x hx)⟩
      | some replayRecord =>
        obtain ⟨b', hb', hd', hrep⟩ := hreplay replayRecord rfl
        refine meets_ask.mpr ⟨⟨hu', hl', b', replayRecord, hb', hd', rfl, .inr hrep⟩, fun a _ => ?_⟩
        refine ⟨by rw [holdsLock_snoc]; exact hl', fun x hx hs => ?_⟩
        rw [firstResult_snoc] at hx
        obtain ⟨y, hf⟩ := Option.ne_none_iff_exists'.mp hrep.firstResult_ne_none
        rw [hf] at hx
        cases hx
        exact absurd hs (hu' x hf)

end

end AgentHarness.Auth
