/-
What follows from the contract of a renewable call, for every execution of
it: what the operation is run with, what the store is made to hold, how
often anything happens.
-/
import AgentHarness.Auth.CallSpec
import AgentHarness.Auth.Serde

namespace AgentHarness.Auth

open Text Except Interact

variable {T E : Type} {S : SerdeJson} {isUnauthorized : E → Bool} {tr pre post : History T E}
  {e : Event (Answer T E)} {q : Program Request (Answer T E) (Except CredentialUseError (Except E T))}

/-- What a successful request makes of the store; one that fails changes nothing. -/
def storeEffect (stored : Option Bytes) : Event (Answer T E) → Option Bytes
  | ⟨.replace b, .ok _⟩ => some b
  | ⟨.delete, .ok _⟩ => none
  | _ => stored

/-! ## Every request has its history -/

theorem renewable_requestGuar
    (hf : (withRenewableAuthorizedCredentialFrom S isUnauthorized).run.Follows (pre ++ e :: post) q) :
    Unsettled isUnauthorized pre ∧ requestGuar S isUnauthorized pre e.1 :=
  (withRenewable_meets S isUnauthorized).guar_free hf

theorem Replays.count_operation {h : History T E} {b : Bytes} (hr : Replays isUnauthorized h b) :
    count .operation h = 1 := by
  obtain ⟨h₁, c, e, h₂, b₁, rfl, hn₁, hn₂, -⟩ := hr
  simp [Request.kind, hn₁, hn₂]

/-- How often a call makes requests of a kind at most; the clock and the
lock's release have no bound of their own. -/
def Kind.bound : Kind → Option Nat
  | .read => some 3
  | .operation | .acquire => some 2
  | .refresh | .replace => some 1
  | .delete | .other => some 0
  | .clock | .release => none

theorem requestGuar_count {h : History T E} {r : Request} {n : Nat} (hg : requestGuar S isUnauthorized h r)
    (hn : r.kind.bound = some n) : count r.kind h < n := by
  cases r with
  | read => cases hn; exact hg
  | replace b => cases hn; exact Nat.lt_one_iff.mpr hg.2.1
  | acquire => cases hn; exact hg.2
  | refresh t => cases hn; exact Nat.lt_one_iff.mpr hg.2.1
  | operation c =>
    cases hn
    obtain ⟨-, b, r, -, -, -, h0 | hr⟩ := hg
    · exact h0 ▸ by decide
    · exact hr.count_operation ▸ by decide
  | unixSeconds | release => exact nomatch hn
  | delete | bindCallback | openBrowser | waitCallback | exchangeCode _ => exact hg.elim

theorem renewable_count_le {k : Kind} {n : Nat} (hn : k.bound = some n)
    (hf : (withRenewableAuthorizedCredentialFrom S isUnauthorized).run.Follows tr q) : count k tr ≤ n := by
  refine countP_le_of_guarded fun pre e post he hk => ?_
  subst he
  obtain rfl : e.1.kind = k := by simpa using hk
  exact requestGuar_count (renewable_requestGuar hf).2 hn

/-- Once the first result settles the call, the call is over and returns it. -/
theorem renewable_settled {x : Except E T} (hx : firstResult tr = some x) (hs : Settles isUnauthorized x)
    (hf : (withRenewableAuthorizedCredentialFrom S isUnauthorized).run.Follows tr q) : q = .ret (.ok x) := by
  have hm := (withRenewable_meets S isUnauthorized).follows_free hf
  cases q with
  | ret res => exact congrArg Program.ret (hm.2 x hx hs)
  | ask r k => exact absurd hs (hm.1.1 x hx)

/-- A result that is returned is one of an operation's. -/
theorem renewable_returned {h : History T E} :
    (withRenewableAuthorizedCredentialFrom (T := T) S isUnauthorized).run.Meets (.free fun _ _ => True)
      (fun h res => ∀ x, res = .ok x → ∃ c, ⟨.operation c, x⟩ ∈ h) h := by
  refine meets_bind (R := fun _ _ => True) (Program.meets_any _) (fun h e _ x hx => by cases hx) ?_
  intro h attempted _
  refine meets_bind (R := fun _ _ => True) (Program.meets_any _) (fun h e _ x hx => by cases hx) ?_
  intro h proactive _
  refine meets_ask_bind.mpr ⟨trivial, fun a _ => ?_⟩
  have hmem : (⟨.operation (authorizedCredential proactive.2.1), a⟩ : Event (Answer T E)) ∈
      h ++ [⟨.operation (authorizedCredential proactive.2.1), a⟩] := by simp
  cases a with
  | ok value =>
    refine meets_pure.mpr fun x hx => ?_
    cases hx
    exact ⟨_, hmem⟩
  | error e =>
    change Program.Meets _ _ _ (if !isUnauthorized e then _ else _ : Call T E CredentialUseError (Except E T)).run
    split
    · refine meets_pure.mpr fun x hx => ?_
      cases hx
      exact ⟨_, hmem⟩
    · refine meets_bind (Program.meets_prefix _) (fun h e _ x hx => by cases hx) ?_
      intro h' replayed hprefix
      cases replayed with
      | none =>
        -- the first result stands, and its operation is further back
        refine meets_pure.mpr fun x hx => ?_
        cases hx
        exact ⟨_, hprefix.subset hmem⟩
      | some replayRecord =>
        refine meets_ask.mpr ⟨trivial, fun a _ x hx => ?_⟩
        cases hx
        exact ⟨_, List.mem_append_right _ List.mem_cons_self⟩

/-! ## A refresh that goes well -/

section
variable {ε α β : Type} {C : Contract Request (Answer T E)}

theorem withRefreshLock_follows {body : Call T E CredentialUseError α} {x : Except CredentialUseError α}
    {l : History T E} (h : body.run.Follows l (.ret x)) :
    (withRefreshLock body).run.Follows (⟨.acquire, .ok ()⟩ :: (l ++ [⟨.release, ()⟩])) (.ret x) := by
  have hlift : (ExceptT.lift body.run : Call T E CredentialUseError _).run.Follows (l ++ []) (.ret (.ok x)) :=
    Program.Follows.bind h .nil
  rw [List.append_nil] at hlift
  exact follows_ask_bind (follows_exit_bind rfl (follows_bind hlift (follows_ask_bind .nil)))

variable {b b' : Bytes} {r r' : CredentialRecord} {response : RefreshResponse} {now now' : UInt64}

theorem readRenewableRecord_follows (hd : CredentialRecord.deserializeStructural S b = .ok r) :
    (readRenewableRecord (T := T) (E := E) S).run.Follows [⟨.read, .ok (some b)⟩] (.ret (.ok (b, r))) := by
  have hx : renewableRecord S (.ok (some b)) = .ok (b, r) := renewableRecord_ok_iff.mpr ⟨rfl, hd⟩
  refine follows_ask_bind ?_
  rw [hx]
  exact .nil

theorem refreshAndReplace_follows (happly : r.applyRefresh S response now = .ok r') (hser : r'.serialize S = .ok b') :
    (refreshAndReplace (T := T) (E := E) S r).run.Follows
      [⟨.refresh r.refreshToken, .ok response⟩, ⟨.unixSeconds, now⟩, ⟨.replace b', .ok ()⟩]
      (.ret (.ok (b', r'))) := by
  have hx : refreshedRecord S r response now = .ok (b', r') := by
    simp [refreshedRecord, happly, hser, Except.mapError, bind, Except.bind, pure, Except.pure]
  exact follows_ask_bind (follows_exit_bind rfl (follows_ask_bind (follows_exit_bind hx
    (follows_ask_bind (follows_exit_bind rfl .nil)))))

/-- What a due credential is put through when nothing fails. -/
def refreshRun (b : Bytes) (r : CredentialRecord) (now : UInt64) (response : RefreshResponse) (now' : UInt64)
    (b' : Bytes) : History T E :=
  [⟨.read, .ok (some b)⟩, ⟨.unixSeconds, now⟩, ⟨.acquire, .ok ()⟩, ⟨.read, .ok (some b)⟩,
    ⟨.refresh r.refreshToken, .ok response⟩, ⟨.unixSeconds, now'⟩, ⟨.replace b', .ok ()⟩, ⟨.release, ()⟩]

/-- **A due credential is refreshed, persisted and then used.** -/
theorem renewable_refreshes (isUnauthorized : E → Bool) (hd : CredentialRecord.deserializeStructural S b = .ok r) (hdue : r.refreshDue now = true)
    (happly : r.applyRefresh S response now' = .ok r') (hser : r'.serialize S = .ok b') (value : T) :
    (withRenewableAuthorizedCredentialFrom S isUnauthorized).run.Follows
      (refreshRun b r now response now' b' ++ [⟨.operation (authorizedCredential r'), .ok value⟩])
      (.ret (.ok (.ok value))) := by
  have hproactive : (proactive (T := T) (E := E) S b r).run.Follows (refreshRun b r now response now' b').tail
      (.ret (.ok (b', r', true))) := by
    refine follows_ask_bind ?_
    rw [if_pos hdue]
    refine withRefreshLock_follows (l := [⟨.read, .ok (some b)⟩] ++ ([⟨.refresh r.refreshToken, .ok response⟩,
      ⟨.unixSeconds, now'⟩, ⟨.replace b', .ok ()⟩] ++ [])) (follows_bind (readRenewableRecord_follows hd) ?_)
    simp only [bne_self_eq_false, Bool.false_eq_true, if_false]
    exact follows_bind (refreshAndReplace_follows happly hser) .nil
  show Program.Follows _ ([⟨.read, .ok (some b)⟩] ++ ((refreshRun b r now response now' b').tail ++
    [⟨.operation (authorizedCredential r'), .ok value⟩])) _
  refine follows_bind (readRenewableRecord_follows hd) ?_
  refine follows_bind hproactive ?_
  exact follows_ask_bind .nil

/-- One that is not due is attempted as it is. -/
theorem proactive_follows (hdue : r.refreshDue now = false) :
    (proactive (T := T) (E := E) S b r).run.Follows [⟨.unixSeconds, now⟩] (.ret (.ok (b, r, false))) := by
  refine follows_ask_bind ?_
  rw [hdue, if_neg Bool.false_ne_true]
  exact .nil

theorem renewable_uses (isUnauthorized : E → Bool) (hd : CredentialRecord.deserializeStructural S b = .ok r)
    (hdue : r.refreshDue now = false) (value : T) :
    (withRenewableAuthorizedCredentialFrom S isUnauthorized).run.Follows
      [⟨.read, .ok (some b)⟩, ⟨.unixSeconds, now⟩, ⟨.operation (authorizedCredential r), .ok value⟩] (.ret (.ok (.ok value))) :=
  follows_bind (readRenewableRecord_follows hd) (follows_bind (proactive_follows hdue) (follows_ask_bind .nil))

/-- What a credential is put through that is not due, is not authorized and is refreshed then. -/
def replayRun (b : Bytes) (r : CredentialRecord) (now : UInt64) (first : E) (response : RefreshResponse) (now' : UInt64) (b' : Bytes)
    (r' : CredentialRecord) (value : T) : History T E :=
  [⟨.read, .ok (some b)⟩] ++ ([⟨.unixSeconds, now⟩] ++ ⟨.operation (authorizedCredential r), .error first⟩ ::
    ((refreshRun b r now response now' b').drop 2 ++ [⟨.operation (authorizedCredential r'), .ok value⟩]))

/-- **One that is not authorized is refreshed once and used again.** -/
theorem renewable_replays (isUnauthorized : E → Bool) (hd : CredentialRecord.deserializeStructural S b = .ok r)
    (hdue : r.refreshDue now = false) {first : E} (hfirst : isUnauthorized first = true)
    (happly : r.applyRefresh S response now' = .ok r') (hser : r'.serialize S = .ok b') (value : T) :
    (withRenewableAuthorizedCredentialFrom S isUnauthorized).run.Follows (replayRun b r now first response now' b' r' value)
      (.ret (.ok (.ok value))) := by
  have hreactive : (reactive (T := T) (E := E) S b r false).run.Follows ((refreshRun b r now response now' b').drop 2)
      (.ret (.ok (some r'))) := by
    refine withRefreshLock_follows (l := [⟨.read, .ok (some b)⟩] ++ ([⟨.refresh r.refreshToken, .ok response⟩,
      ⟨.unixSeconds, now'⟩, ⟨.replace b', .ok ()⟩] ++ [])) (follows_bind (readRenewableRecord_follows hd) ?_)
    simp only [bne_self_eq_false, Bool.false_eq_true, if_false]
    exact follows_bind (refreshAndReplace_follows happly hser) .nil
  refine follows_bind (readRenewableRecord_follows hd) (follows_bind (proactive_follows hdue) (follows_ask_bind ?_))
  simp only [hfirst, Bool.not_true, Bool.false_eq_true, if_false]
  exact follows_bind hreactive (.cons .nil)

end

/-! ## Persist before use -/

/-- Of the requests a renewable call makes only a replace that succeeds
changes the store. -/
theorem storeEffect_eq {h : History T E} (hg : requestGuar S isUnauthorized h e.1)
    (he : ∀ b, e ≠ ⟨.replace b, .ok ()⟩) (stored : Option Bytes) : storeEffect stored e = stored := by
  obtain ⟨r, a⟩ := e
  cases r with
  | replace b =>
    cases a with
    | error _ => rfl
    | ok u => exact absurd rfl (he b)
  | delete => exact hg.elim
  | _ => rfl

theorem foldl_storeEffect_eq (h : ∀ e ∈ tr, ∀ stored, storeEffect stored e = stored) (stored : Option Bytes) :
    tr.foldl storeEffect stored = stored := by
  induction tr with
  | nil => rfl
  | cons e tr ih =>
    rw [List.foldl_cons, h e List.mem_cons_self]
    exact ih fun e' he' => h e' (List.mem_cons_of_mem _ he')

/-- At any point of an execution: the operation was given the access token
and the account of the latest record the store returned or accepted; the
store was asked to change only by a replace, under the lock, with the
refresh of the record just re-read there; and unless a replace succeeded
the store is as it was. -/
structure PersistsBeforeUse (S : SerdeJson) (tr : History T E) : Prop where
  uses : ∀ pre c x post, tr = pre ++ ⟨.operation c, x⟩ :: post → ∃ b r, latestRecord pre = some b ∧
    CredentialRecord.deserializeStructural S b = .ok r ∧
    c.accessToken = r.accessToken ∧ c.accountId = r.chatgptAccountId
  writes : ∀ pre b x post, tr = pre ++ ⟨.replace b, x⟩ :: post → holdsLock pre = true ∧ RefreshedUnderLock S pre b
  changes : ∀ e ∈ tr, (∃ stored, storeEffect stored e ≠ stored) → ∃ b, e = ⟨.replace b, .ok ()⟩
  failsClean : (∀ b, ⟨.replace b, .ok ()⟩ ∉ tr) → ∀ stored, tr.foldl storeEffect stored = stored

/-- **A renewable call uses only what the store holds, and writes only what
it has just refreshed.** -/
theorem renewable_persistsBeforeUse
    (hf : (withRenewableAuthorizedCredentialFrom S isUnauthorized).run.Follows tr q) : PersistsBeforeUse S tr := by
  have hguar : ∀ e ∈ tr, ∃ h : History T E, requestGuar S isUnauthorized h e.1 := by
    intro e he
    obtain ⟨pre, post, rfl⟩ := List.append_of_mem he
    exact ⟨pre, (renewable_requestGuar hf).2⟩
  refine ⟨fun pre c x post htr => ?_, fun pre b x post htr => ?_, fun e he hs => ?_, fun hno => ?_⟩
  · subst htr
    obtain ⟨-, b, r, hb, hd, hc, -⟩ := (renewable_requestGuar hf).2
    have hc : c = authorizedCredential r := hc
    exact ⟨b, r, hb, hd, by rw [hc]; rfl, by rw [hc]; rfl⟩
  · subst htr
    obtain ⟨hl, -, -, hr⟩ := (renewable_requestGuar hf).2
    exact ⟨hl, hr⟩
  · obtain ⟨h, hg⟩ := hguar e he
    obtain ⟨stored, hne⟩ := hs
    by_contra hall
    exact hne (storeEffect_eq hg (fun b hb => hall ⟨b, hb⟩) stored)
  · refine foldl_storeEffect_eq fun e he => ?_
    obtain ⟨h, hg⟩ := hguar e he
    exact storeEffect_eq hg fun b hb => hno b (hb ▸ he)

/-! ## Bounded refresh and replay -/

/-- The sample record refreshed, persisted and used. -/
theorem renewable_persistsBeforeUse_refresh : PersistsBeforeUse serdeJson
    (refreshRun (T := Unit) (E := Unit) (Json.render sampleRecord.toJson) sampleRecord 1000 sampleResponse 1000
      (Json.render sampleRefreshed.toJson) ++ [⟨.operation (authorizedCredential sampleRefreshed), .ok ()⟩]) :=
  renewable_persistsBeforeUse
    (renewable_refreshes (fun _ => true) sample_stored sample_due sample_applyRefresh rfl ())

/-- At any point of an execution that has become `q`: the operation ran at
most twice, the endpoint was contacted and the store replaced at most once,
the lock taken at most twice and the store read at most three times; a
replace comes right after the refresh that succeeded; a second operation
comes only after an unauthorized first one, with a record of other bytes or
one written in between; and any other first result is what the call
returns, at once. -/
structure BoundedReplay (S : SerdeJson) (isUnauthorized : E → Bool) (tr : History T E)
    (q : Program Request (Answer T E) (Except CredentialUseError (Except E T))) : Prop where
  operations : count .operation tr ≤ 2
  refreshes : count .refresh tr ≤ 1
  replaces : count .replace tr ≤ 1
  acquires : count .acquire tr ≤ 2
  reads : count .read tr ≤ 3
  refreshed : ∀ pre b x post, tr = pre ++ ⟨.replace b, x⟩ :: post → RefreshedUnderLock S pre b
  replays : ∀ pre c₁ x mid c₂ y post, tr = pre ++ ⟨.operation c₁, x⟩ :: (mid ++ ⟨.operation c₂, y⟩ :: post) →
    (∃ e, x = .error e ∧ isUnauthorized e = true) ∧ ∃ b₁ r₁ b₂ r₂,
      latestRecord pre = some b₁ ∧ CredentialRecord.deserializeStructural S b₁ = .ok r₁ ∧
      c₁ = authorizedCredential r₁ ∧
      latestRecord (pre ++ ⟨.operation c₁, x⟩ :: mid) = some b₂ ∧
      CredentialRecord.deserializeStructural S b₂ = .ok r₂ ∧ c₂ = authorizedCredential r₂ ∧
      (b₂ ≠ b₁ ∨ ⟨.replace b₂, .ok ()⟩ ∈ mid)
  settles : ∀ x, firstResult tr = some x → Settles isUnauthorized x → q = .ret (.ok x)

/-- **A renewable call refreshes at most once and replays at most once.** -/
theorem renewable_boundedReplay
    (hf : (withRenewableAuthorizedCredentialFrom S isUnauthorized).run.Follows tr q) :
    BoundedReplay S isUnauthorized tr q := by
  refine ⟨renewable_count_le rfl hf, renewable_count_le rfl hf, renewable_count_le rfl hf, renewable_count_le rfl hf,
    renewable_count_le rfl hf, fun pre b x post htr => ?_, fun pre c₁ x mid c₂ y post htr => ?_,
    fun x hx hs => renewable_settled hx hs hf⟩
  · subst htr
    exact (renewable_requestGuar hf).2.2.2.2
  · subst htr
    have hf₁ : (withRenewableAuthorizedCredentialFrom S isUnauthorized).run.Follows
        ((pre ++ ⟨.operation c₁, x⟩ :: mid) ++ ⟨.operation c₂, y⟩ :: post) q := by simpa using hf
    obtain ⟨-, -, b₁, r₁, hb₁, hd₁, hc₁, -⟩ := renewable_requestGuar hf
    obtain ⟨-, -, b₂, r₂, hb₂, hd₂, hc₂, hrep⟩ := renewable_requestGuar hf₁
    obtain h0 | ⟨h₁, c, e, h₂, b, he, hn₁, hn₂, hun, hb, hnew⟩ := hrep
    · simp [Request.kind] at h0
    let p (e : Event (Answer T E)) : Bool := decide (e.1.kind = .operation)
    obtain ⟨rfl, hx, rfl⟩ := eq_of_append_cons_eq (p := p) he rfl rfl hn₁ hn₂
    cases hx
    obtain rfl : b₁ = b := Option.some.inj (hb₁.symm.trans hb)
    exact ⟨⟨e, rfl, hun⟩, b₁, r₁, b₂, r₂, hb₁, hd₁, hc₁, hb₂, hd₂, hc₂, hnew⟩

/-- The sample record not authorized at first, refreshed and replayed with. -/
theorem renewable_boundedReplay_sample : BoundedReplay serdeJson (fun _ => true)
    (replayRun (Json.render sampleRecord.toJson) sampleRecord 0 () sampleResponse 1000 (Json.render sampleRefreshed.toJson)
      sampleRefreshed ()) (.ret (.ok (.ok ())) : Program Request (Answer Unit Unit) _) :=
  renewable_boundedReplay (renewable_replays _ sample_stored sample_notDue rfl sample_applyRefresh rfl ())

end AgentHarness.Auth
