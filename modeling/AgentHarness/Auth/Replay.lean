/-
What a renewable call replays its operation with: the record that was
attempted, refreshed by the call itself, or whatever record another process
has left in the store meanwhile. Only the first is bound to the account of
the attempt.
-/
import AgentHarness.Auth.Renewable

namespace AgentHarness.Auth

open Text Except Interact

variable {T E : Type}

/-! ## The contract -/

section
variable (S : SerdeJson)

/-- What the call did between its two operations, the first with the record
`r₁` of bytes `b₁`, and the credential it replays with. -/
inductive Replay (b₁ : Bytes) (r₁ : CredentialRecord) : History T E → AuthorizedCredential → Prop
  /-- It found a record of other bytes. -/
  | adopted {b r} : b ≠ b₁ → CredentialRecord.deserializeStructural S b = .ok r →
      Replay b₁ r₁ [⟨.acquire, .ok ()⟩, ⟨.read, .ok (some b)⟩, ⟨.release, ()⟩] (authorizedCredential r)
  /-- It refreshed the record it had attempted. -/
  | refreshed {response now r' b'} : r₁.applyRefresh S response now = .ok r' → r'.serialize S = .ok b' →
      Replay b₁ r₁ [⟨.acquire, .ok ()⟩, ⟨.read, .ok (some b₁)⟩, ⟨.refresh r₁.refreshToken, .ok response⟩,
        ⟨.unixSeconds, now⟩, ⟨.replace b', .ok ()⟩, ⟨.release, ()⟩] (authorizedCredential r')

/-- A record the store returned or accepted last. -/
def Latest (h : History T E) (b : Bytes) (r : CredentialRecord) : Prop :=
  latestRecord h = some b ∧ CredentialRecord.deserializeStructural S b = .ok r

/-- An operation is the first, or replays the first. -/
def replayGuar (h : History T E) : Request → Prop
  | .operation c => count .operation h = 0 ∧ (∃ b r, Latest S h b r ∧ c = authorizedCredential r) ∨
      ∃ h₁ x h₂ b₁ r₁, h = h₁ ++ ⟨.operation (authorizedCredential r₁), x⟩ :: h₂ ∧ count .operation h₁ = 0 ∧
        count .operation h₂ = 0 ∧ Latest S h₁ b₁ r₁ ∧ Replay S b₁ r₁ h₂ c
  | _ => True

def replayContract : Contract Request (Answer T E) := .free (replayGuar S)

end

/-! ## The call meets it -/

section
variable {S : SerdeJson} {h : History T E} {b : Bytes} {r : CredentialRecord} {α : Type}

theorem readRenewableRecord_reads : (readRenewableRecord S).run.Meets (replayContract S)
    (fun h' res => ∀ x, res = .ok x → h' = h ++ [⟨.read, .ok (some x.1)⟩] ∧
      CredentialRecord.deserializeStructural S x.1 = .ok x.2) h := by
  refine meets_ask_bind.mpr ⟨trivial, fun a _ => meets_exit.mpr fun x hx => ?_⟩
  obtain ⟨rfl, hd⟩ := renewableRecord_ok_iff.mp hx
  exact ⟨rfl, hd⟩

theorem refreshAndReplace_refreshes : (refreshAndReplace S r).run.Meets (replayContract S)
    (fun h' res => ∀ x, res = .ok x → ∃ response now, r.applyRefresh S response now = .ok x.2 ∧
      x.2.serialize S = .ok x.1 ∧ h' = h ++ [⟨.refresh r.refreshToken, .ok response⟩, ⟨.unixSeconds, now⟩,
        ⟨.replace x.1, .ok ()⟩]) h := by
  refine meets_ask_bind.mpr ⟨trivial, fun a _ => ?_⟩
  refine meets_exit_bind.mpr ⟨fun _ _ _ hx => (by cases hx), fun response ha => ?_⟩
  cases a with
  | error e => cases ha
  | ok response' =>
    cases ha
    refine meets_ask_bind.mpr ⟨trivial, fun now _ => ?_⟩
    refine meets_exit_bind.mpr ⟨fun _ _ _ hx => (by cases hx), fun x hx => ?_⟩
    obtain ⟨happly, hser⟩ := refreshedRecord_ok hx
    refine meets_ask_bind.mpr ⟨trivial, fun a _ => ?_⟩
    refine meets_exit_bind.mpr ⟨fun _ _ _ hx => (by cases hx), fun _ ha => ?_⟩
    cases a with
    | error e => cases ha
    | ok u =>
      intro y hy
      cases hy
      exact ⟨response, now, happly, hser, by simp⟩

/-- The record to attempt is the one the store returned or accepted last. -/
theorem proactive_latest (hcount : count .operation h = 0) (hl : Latest S h b r) :
    (proactive S b r).run.Meets (replayContract S)
      (fun h' res => ∀ x, res = .ok x → count .operation h' = 0 ∧ Latest S h' x.1 x.2.1) h := by
  refine meets_ask_bind.mpr ⟨trivial, fun now _ => ?_⟩
  split
  · refine meets_withRefreshLock trivial (fun _ _ hx => by cases hx) ?_
    refine meets_bind readRenewableRecord_reads (fun h' e _ => ⟨trivial, fun _ hx => by cases hx⟩) fun h' x hx => ?_
    obtain ⟨rfl, hd⟩ := hx x rfl
    obtain ⟨b', r'⟩ := x
    simp only
    split
    · refine meets_pure.mpr ⟨trivial, fun x hx => ?_⟩
      cases hx
      exact ⟨by simp [hcount, Request.kind], by simp [latestRecord, noteRecord], hd⟩
    · rename_i hb
      obtain rfl : b' = b := by simpa using hb
      obtain rfl : r' = r := Except.ok.inj (hd.symm.trans hl.2)
      refine meets_bind refreshAndReplace_refreshes (fun h' e _ => ⟨trivial, fun _ hx => by cases hx⟩) fun h' x hx => ?_
      obtain ⟨response, now, happly, hser, rfl⟩ := hx x rfl
      refine meets_pure.mpr ⟨trivial, fun y hy => ?_⟩
      cases hy
      have hv := CredentialRecord.deserializeStructural_refreshed
        (CredentialRecord.deserializeStructural_ok_iff.mp hd).2.2 happly hser
      exact ⟨by simp [hcount, Request.kind], by simp [latestRecord, noteRecord], hv⟩
  · refine meets_pure.mpr fun x hx => ?_
    cases hx
    exact ⟨by simp [hcount, Request.kind], by rw [latestRecord_snoc]; exact hl.1, hl.2⟩

theorem reactive_replays (hd : CredentialRecord.deserializeStructural S b = .ok r) (contactedRefreshEndpoint : Bool) :
    (reactive S b r contactedRefreshEndpoint).run.Meets (replayContract S)
      (fun h' res => ∀ r', res = .ok (some r') → ∃ mid, h' = h ++ mid ∧ count .operation mid = 0 ∧
        Replay S b r mid (authorizedCredential r')) h := by
  refine meets_withRefreshLock trivial (fun _ _ hx => by cases hx) ?_
  refine meets_bind readRenewableRecord_reads (fun h' e _ => ⟨trivial, fun _ hx => by cases hx⟩) fun h' x hx => ?_
  obtain ⟨rfl, hd'⟩ := hx x rfl
  obtain ⟨b', r'⟩ := x
  simp only
  split
  · rename_i hb
    refine meets_pure.mpr ⟨trivial, fun x hx => ?_⟩
    cases hx
    exact ⟨_, by simp, by simp [Request.kind], .adopted (by simpa using hb) hd'⟩
  · rename_i hb
    obtain rfl : b' = b := by simpa using hb
    obtain rfl : r' = r := Except.ok.inj (hd'.symm.trans hd)
    split
    · exact meets_pure.mpr ⟨trivial, fun _ hx => by cases hx⟩
    · refine meets_bind refreshAndReplace_refreshes (fun h' e _ => ⟨trivial, fun _ hx => by cases hx⟩) fun h' x hx => ?_
      obtain ⟨response, now, happly, hser, rfl⟩ := hx x rfl
      refine meets_pure.mpr ⟨trivial, fun y hy => ?_⟩
      cases hy
      exact ⟨_, by simp, by simp [Request.kind], .refreshed happly hser⟩

/-- **The renewable call replays only what it adopted or refreshed.** -/
theorem withRenewable_replays (S : SerdeJson) (isUnauthorized : E → Bool) :
    (withRenewableAuthorizedCredentialFrom (T := T) S isUnauthorized).run.Meets (replayContract S) (fun _ _ => True) [] := by
  refine meets_bind readRenewableRecord_reads (fun _ _ _ => trivial) fun h x hx => ?_
  obtain ⟨rfl, hd⟩ := hx x rfl
  obtain ⟨b, r⟩ := x
  refine meets_bind (proactive_latest rfl ⟨rfl, hd⟩) (fun _ _ _ => trivial) fun h x hx => ?_
  obtain ⟨hcount, hl⟩ := hx x rfl
  obtain ⟨b, r, contactedRefreshEndpoint⟩ := x
  refine meets_ask_bind.mpr ⟨.inl ⟨hcount, b, r, hl, rfl⟩, fun a _ => ?_⟩
  cases a with
  | ok value => trivial
  | error firstError =>
    simp only
    split
    · trivial
    · refine meets_bind (reactive_replays hl.2 contactedRefreshEndpoint) (fun _ _ _ => trivial) fun h' x hx => ?_
      cases x with
      | none => trivial
      | some replayRecord =>
        obtain ⟨mid, rfl, hmid, hreplay⟩ := hx replayRecord rfl
        exact meets_ask.mpr ⟨.inr ⟨h, .error firstError, mid, b, r, by simp, hcount, hmid, hl, hreplay⟩, fun _ _ => trivial⟩

end

/-! ## The account of a replay -/

section
variable {S : SerdeJson} {isUnauthorized : E → Bool} {pre mid post : History T E} {c₁ c₂ : AuthorizedCredential}
  {x y : Except E T} {q : Program Request (Answer T E) (Except CredentialUseError (Except E T))}

/-- Between its two operations a call adopts or refreshes what it attempted. -/
theorem renewable_replay (hf : (withRenewableAuthorizedCredentialFrom S isUnauthorized).run.Follows
    (pre ++ ⟨.operation c₁, x⟩ :: (mid ++ ⟨.operation c₂, y⟩ :: post)) q) :
    ∃ b₁ r₁, Latest S pre b₁ r₁ ∧ c₁ = authorizedCredential r₁ ∧ Replay S b₁ r₁ mid c₂ := by
  have hf₂ : (withRenewableAuthorizedCredentialFrom S isUnauthorized).run.Follows
      ((pre ++ ⟨.operation c₁, x⟩ :: mid) ++ ⟨.operation c₂, y⟩ :: post) q := by simpa using hf
  have hg₂ := (withRenewable_replays S isUnauthorized).guar_free hf₂
  rcases hg₂ with ⟨h0, -⟩ | ⟨h₁, x', h₂, b₁, r₁, he, hn₁, hn₂, hl, hreplay⟩
  · simp [Request.kind] at h0
  · let p (e : Event (Answer T E)) : Bool := decide (e.1.kind = .operation)
    obtain ⟨rfl, hx, rfl⟩ := eq_of_append_cons_eq (p := p) he rfl rfl hn₁ hn₂
    cases hx
    exact ⟨b₁, r₁, hl, rfl, hreplay⟩

/-- **A replay stays with the account of the attempt**, unless the record
that the store held by then, of other bytes than were attempted, was
adopted: then it has that record's account, whichever it is. -/
theorem renewable_replay_account (hf : (withRenewableAuthorizedCredentialFrom S isUnauthorized).run.Follows
    (pre ++ ⟨.operation c₁, x⟩ :: (mid ++ ⟨.operation c₂, y⟩ :: post)) q) :
    c₂.accountId = c₁.accountId ∨ ∃ b₁ b r, latestRecord pre = some b₁ ∧ b ≠ b₁ ∧
      mid = [⟨.acquire, .ok ()⟩, ⟨.read, .ok (some b)⟩, ⟨.release, ()⟩] ∧
      CredentialRecord.deserializeStructural S b = .ok r ∧ c₂ = authorizedCredential r := by
  obtain ⟨b₁, r₁, hl, rfl, hreplay⟩ := renewable_replay hf
  cases hreplay with
  | adopted hne hd => exact .inr ⟨b₁, _, _, hl.1, hne, rfl, hd, rfl⟩
  | refreshed happly hser => exact .inl (CredentialRecord.applyRefresh_accountId happly)

variable {b₁ b : Bytes} {r₁ r : CredentialRecord} {now : UInt64}

/-- What a call is put through that is unauthorized with a record that is
not due and finds another one in its place. -/
def adoptRun (b₁ : Bytes) (r₁ : CredentialRecord) (now : UInt64) (b : Bytes) (r : CredentialRecord) (first : E) (value : T) :
    History T E :=
  [⟨.read, .ok (some b₁)⟩, ⟨.unixSeconds, now⟩] ++ ⟨.operation (authorizedCredential r₁), .error first⟩ ::
    ([⟨.acquire, .ok ()⟩, ⟨.read, .ok (some b)⟩, ⟨.release, ()⟩] ++ ⟨.operation (authorizedCredential r), .ok value⟩ :: [])

theorem renewable_adopts (isUnauthorized : E → Bool) (hd₁ : CredentialRecord.deserializeStructural S b₁ = .ok r₁)
    (hdue : r₁.refreshDue now = false) (hne : b ≠ b₁) (hd : CredentialRecord.deserializeStructural S b = .ok r) {first : E}
    (hfirst : isUnauthorized first = true) (value : T) :
    (withRenewableAuthorizedCredentialFrom S isUnauthorized).run.Follows (adoptRun b₁ r₁ now b r first value)
      (.ret (.ok (.ok value))) := by
  have hreactive : (reactive (T := T) (E := E) S b₁ r₁ false).run.Follows
      [⟨.acquire, .ok ()⟩, ⟨.read, .ok (some b)⟩, ⟨.release, ()⟩] (.ret (.ok (some r))) := by
    refine withRefreshLock_follows (l := [⟨.read, .ok (some b)⟩] ++ []) (follows_bind (readRenewableRecord_follows hd) ?_)
    simp only [bne_iff_ne.mpr hne, if_true]
    exact .nil
  show Program.Follows _ (([⟨.read, .ok (some b₁)⟩] : History T E) ++ (([⟨.unixSeconds, now⟩] : History T E) ++
    ⟨.operation (authorizedCredential r₁), .error first⟩ :: (([⟨.acquire, .ok ()⟩, ⟨.read, .ok (some b)⟩, ⟨.release, ()⟩] :
      History T E) ++ [⟨.operation (authorizedCredential r), .ok value⟩]))) _
  refine follows_bind (readRenewableRecord_follows hd₁) ?_
  refine follows_bind (proactive_follows hdue) (follows_ask_bind ?_)
  simp only [hfirst, Bool.not_true, Bool.false_eq_true, if_false]
  exact follows_bind hreactive (follows_ask_bind .nil)

end

theorem sample_bytes_ne : Json.render sampleLoggedIn.toJson ≠ Json.render sampleRecord.toJson := by decide +kernel

/-- A login for another account between the attempt and the replay: the
operation runs under both accounts. -/
theorem replayed_elsewhere :
    (withRenewableAuthorizedCredentialFrom (T := Unit) (E := Unit) serdeJson (fun _ => true)).run.Follows
      (adoptRun (Json.render sampleRecord.toJson) sampleRecord 0 (Json.render sampleLoggedIn.toJson) sampleLoggedIn () ())
      (.ret (.ok (.ok ()))) ∧
    (authorizedCredential sampleLoggedIn).accountId ≠ (authorizedCredential sampleRecord).accountId :=
  ⟨renewable_adopts (fun _ => true) sample_stored sample_notDue sample_bytes_ne sample_loggedIn rfl (), by decide⟩

theorem sample_refreshed_ne : Json.render sampleRefreshed.toJson ≠ Json.render sampleRecord.toJson := by decide +kernel

/-- Another process's refresh, and what is said of the replay with it. -/
theorem renewable_replay_account_sample :
    (authorizedCredential sampleRefreshed).accountId = (authorizedCredential sampleRecord).accountId ∨
      ∃ b₁ b r, latestRecord ([⟨.read, .ok (some (Json.render sampleRecord.toJson))⟩, ⟨.unixSeconds, (0 : UInt64)⟩] :
          History Unit Unit) = some b₁ ∧ b ≠ b₁ ∧
        ([⟨.acquire, .ok ()⟩, ⟨.read, .ok (some (Json.render sampleRefreshed.toJson))⟩, ⟨.release, ()⟩] :
          History Unit Unit) = [⟨.acquire, .ok ()⟩, ⟨.read, .ok (some b)⟩, ⟨.release, ()⟩] ∧
        CredentialRecord.deserializeStructural serdeJson b = .ok r ∧
        authorizedCredential sampleRefreshed = authorizedCredential r :=
  renewable_replay_account (x := .error ()) (renewable_adopts (fun _ => true) sample_stored sample_notDue sample_refreshed_ne
    (CredentialRecord.deserializeStructural_refreshed (by decide) sample_applyRefresh rfl) rfl ())

end AgentHarness.Auth
