/-
What concurrent calls keep, over every order of their requests: a spent
refresh token is not sent again; a logout and a login stand, up to the
replace of a renewable call that had read the store before them.
-/
import AgentHarness.Auth.Store

namespace AgentHarness.Auth

open Text Except Interact

variable {ι T E : Type}

/-- Calls of some kinds, about to begin. -/
def start (S : SerdeJson) (isUnauthorized : ι → E → Bool) (kind : ι → CallKind) (store : Option Bytes) :
    World ι Request (Answer T E) (Outcome T E) (Shared ι) where
  shared := { store, lock := none }
  prog i := (kind i).program S (isUnauthorized i)

variable [DecidableEq ι] {S : SerdeJson} {isUnauthorized : ι → E → Bool} {kind : ι → CallKind}
  {store : Option Bytes} {tr pre post : Trace ι (Answer T E)} {ok : StepCond ι (Answer T E) (Shared ι)}
  {w m : World ι Request (Answer T E) (Outcome T E) (Shared ι)}

/-- Every call has kept its contract so far. -/
def KeepContracts (S : SerdeJson) (isUnauthorized : ι → E → Bool) (kind : ι → CallKind) (h : ι → History T E)
    (w : World ι Request (Answer T E) (Outcome T E) (Shared ι)) : Prop :=
  ∀ i, (w.prog i).Meets ((kind i).contract S (isUnauthorized i)) (fun _ _ => True) (h i)

theorem CallKind.rely (k : CallKind) (u : E → Bool) (h : History T E) (r : Request) (a : Answer T E r) :
    (k.contract S u).rely h r a := by
  cases k <;> trivial

/-- From the beginning on the lock is held by the call that took it last. -/
theorem run_lockHeld (hrun : Run Exec ok (start S isUnauthorized kind store) tr w) :
    (∀ i, holdsLock (mine i tr) = true ↔ w.shared.lock = some i) ∧
      KeepContracts S isUnauthorized kind (fun i => mine i tr) w := by
  have h := hrun.invariant (C := fun i => (kind i).contract S (isUnauthorized i)) (Q := fun _ _ _ => True)
    (I := LockHeld fun _ => []) ?_ (fun i => (kind i).program_meets S (isUnauthorized i))
    fun tr s i r a s' hI hg hx _ => ⟨(kind i).rely .., hI.step hg hx⟩
  · exact h
  · intro i
    simp [start, holdsLock]

/-- **From any point on**, as long as the store is changed only by
renewable calls that have read it since: coordination is kept, and so is any
property of what is stored that a refresh keeps. -/
theorem run_coordinated {P : Option Bytes → Prop} {R : RefreshResponse → Prop} {h : ι → History T E}
    (hlock : ∀ i, holdsLock (h i) = true ↔ m.shared.lock = some i) (hm : KeepContracts S isUnauthorized kind h m)
    (hP : P m.shared.store)
    (hother : ∀ tr s i r a, ok tr s i ⟨r, a⟩ → kind i ≠ .renewable →
      ((kind i).contract S (isUnauthorized i)).guar (h i ++ mine i tr) r → P s.store →
      storeEffect s.store ⟨r, a⟩ = s.store)
    (hread : ∀ tr s i b, ok tr s i ⟨.replace b, .ok ()⟩ → kind i = .renewable →
      requestGuar S (isUnauthorized i) (h i ++ mine i tr) (.replace b) → ∃ x, (i, ⟨.read, x⟩) ∈ tr)
    (hresp : ∀ tr s i t response, ok tr s i ⟨.refresh t, .ok response⟩ → R response)
    (hrefresh : ∀ b r response now r' b', P (some b) → CredentialRecord.deserializeStructural S b = .ok r →
      R response → r.applyRefresh S response now = .ok r' → r'.serialize S = .ok b' → P (some b'))
    (hrun : Run Exec ok m tr w) :
    (Coordinated h tr w.shared ∧ P w.shared.store) ∧
      KeepContracts S isUnauthorized kind (fun i => h i ++ mine i tr) w := by
  have hinv := hrun.invariant (C := fun i => (kind i).contract S (isUnauthorized i)) (Q := fun _ _ _ => True)
    (I := fun tr s => Coordinated h tr s ∧ P s.store ∧ ∀ i t response, (i, ⟨.refresh t, .ok response⟩) ∈ tr → R response)
    ⟨⟨fun i => by simpa using hlock i, fun i b hb => nomatch hb⟩, hP, fun _ _ _ hmem => nomatch hmem⟩ hm ?_
  · exact ⟨⟨hinv.1.1, hinv.1.2.1⟩, hinv.2⟩
  intro tr s i r a s' hI hg hx ho
  obtain ⟨hc, hPs, hR⟩ := hI
  have hquiet : kind i ≠ .renewable → s'.store = s.store := fun hk =>
    hx.store_eq.trans (hother tr s i r a ho hk hg hPs)
  refine ⟨(kind i).rely .., hc.step hg hx hquiet, ?_, ?_⟩
  · by_cases hk : kind i = .renewable
    · rw [hx.store_eq]
      cases r with
      | replace b =>
        cases a with
        | error e => exact hPs
        | ok u =>
          have hg' := hg
          rw [hk] at hg'
          obtain ⟨b₀, r, response, now, r', hs, hd, hmem, happly, hser⟩ :=
            hc.replace hk hg (hread tr s i b ho hk hg'.2)
          exact hrefresh b₀ r response now r' b (hs ▸ hPs) hd (hR i _ response hmem) happly hser
      | delete =>
        rw [hk] at hg
        exact hg.2.elim
      | _ => exact hPs
    · rw [hquiet hk]
      exact hPs
  · intro j t response hmem
    rcases List.mem_append.mp hmem with hmem | hmem
    · exact hR j t response hmem
    · obtain ⟨rfl, he⟩ := Prod.mk.inj (List.mem_singleton.mp hmem)
      cases he
      exact hresp tr s j t response ho

/-- Every request of a run is one its call's contract allows. -/
theorem run_guar {i : ι} {e : Event (Answer T E)}
    (hrun : Run Exec ok (start S isUnauthorized kind store) (pre ++ (i, e) :: post) w) :
    ((kind i).contract S (isUnauthorized i)).guar (mine i pre) e.1 := by
  obtain ⟨m, k, s', hpre, hask, -⟩ := hrun.split_at
  have hm := (run_lockHeld hpre).2 i
  rw [hask] at hm
  exact hm.1

/-! ## What a write of the store is worth -/

/-- A renewable call that has not read the store in `tr` replaces it there. -/
def StaleReplace (kind : ι → CallKind) (tr : Trace ι (Answer T E)) : Prop :=
  ∃ pre i b post, tr = pre ++ (i, ⟨.replace b, .ok ()⟩) :: post ∧ kind i = .renewable ∧ ∀ x, (i, ⟨.read, x⟩) ∉ pre

/-- After an event of a run, unless there is a stale replace: what the event
leaves in the store stays true of it, if the other calls leave the store
alone and a refresh keeps it. -/
theorem kept_or_stale {P : Option Bytes → Prop} {i : ι} {e : Event (Answer T E)}
    (hrun : Run Exec anyStep (start S isUnauthorized kind store) (pre ++ (i, e) :: post) w)
    (hP : ∀ stored, P (storeEffect stored e))
    (hother : ∀ j e', (j, e') ∈ post → kind j ≠ .renewable → ∀ stored, P stored → storeEffect stored e' = stored)
    (hrefresh : ∀ b r response now r' b', P (some b) → CredentialRecord.deserializeStructural S b = .ok r →
      r.applyRefresh S response now = .ok r' → r'.serialize S = .ok b' → P (some b')) :
    P w.shared.store ∨ StaleReplace kind post := by
  by_cases hstale : StaleReplace kind post
  · exact .inr hstale
  obtain ⟨m, k, s', hpre, hask, hx, -, hpost⟩ := hrun.split_at
  have hrun₁ : Run Exec anyStep (start S isUnauthorized kind store) (pre ++ [(i, e)]) _ := .snoc hpre hask hx trivial
  obtain ⟨hlock, hkeep⟩ := run_lockHeld hrun₁
  have hpost' := hpost.strengthen (fun tr _ j e' => (j, e') ∈ post ∧
      ∀ b, e' = ⟨.replace b, .ok ()⟩ → kind j = .renewable → ∃ x, (j, ⟨.read, x⟩) ∈ tr) ?_
  · refine .inl (run_coordinated (P := P) (R := fun _ => True) hlock hkeep ?_ ?_ ?_ (fun _ _ _ _ _ _ => trivial)
      (fun b r response now r' b' hb hd _ => hrefresh b r response now r' b' hb hd) hpost').1.2
    · rw [World.advance_shared, hx.store_eq]
      exact hP _
    · exact fun tr s j r a ho hk _ hPs => hother j ⟨r, a⟩ ho.2.1 hk s.store hPs
    · exact fun tr s j b ho hk _ => ho.2.2 b rfl hk
  · intro pre' j e' post' _ he
    refine ⟨by rw [he]; simp, fun b hb hk => ?_⟩
    by_contra hno
    exact hstale ⟨pre', j, b, post', hb ▸ he, hk, fun x hx => hno ⟨x, hx⟩⟩

section
variable {b b' : Bytes} {r r' : CredentialRecord} {response : RefreshResponse} {now now' : UInt64}

omit [DecidableEq ι] in
/-- A refresh up to its replace, as the store and the lock see it. -/
theorem steps_refreshing (i : ι) : Steps (Exec (T := T) (E := E)) ⟨some b, none⟩
    (tagged i ((refreshRun b r now response now' b').take 6)) ⟨some b, some i⟩ :=
  .cons (.read _) (.cons (.unixSeconds _ _) (.cons (.acquire _ rfl) (.cons (.read _)
    (.cons (.refresh _ _ _) (.cons (.unixSeconds _ _) .nil)))))

/-- A renewable call that has got to its replace. -/
theorem program_refreshes {u : E → Bool} (hd : CredentialRecord.deserializeStructural S b = .ok r)
    (hdue : r.refreshDue now = true) (happly : r.applyRefresh S response now' = .ok r')
    (hser : r'.serialize S = .ok b') : ∃ q, (CallKind.renewable.program (T := Unit) S u).Follows
      ((refreshRun b r now response now' b').take 6 ++ [⟨.replace b', .ok ()⟩]) q := by
  have h : (CallKind.renewable.program (T := Unit) S u).Follows _ _ :=
    Program.Follows.bind (renewable_refreshes u hd hdue happly hser ()) .nil
  have hl : refreshRun b r now response now' b' ++ [⟨.operation (authorizedCredential r'), .ok ()⟩] ++ [] =
      ((refreshRun b r now response now' b').take 6 ++ [⟨.replace b', .ok ()⟩]) ++
        ([⟨.release, ()⟩, ⟨.operation (authorizedCredential r'), .ok ()⟩] : History Unit E) := rfl
  rw [hl] at h
  obtain ⟨q, hq, -⟩ := h.split
  exact ⟨q, hq⟩

/-- A renewable call that finds nothing where it would refresh. -/
theorem program_disconnected {u : E → Bool} (hd : CredentialRecord.deserializeStructural S b = .ok r)
    (hdue : r.refreshDue now = true) : (CallKind.renewable.program (T := T) S u).Follows
      [⟨.read, .ok (some b)⟩, ⟨.unixSeconds, now⟩, ⟨.acquire, .ok ()⟩, ⟨.read, .ok none⟩, ⟨.release, ()⟩]
      (.ret (.renewable (.error .notConnected))) := by
  have hproactive : (proactive (T := T) (E := E) S b r).run.Follows
      [⟨.unixSeconds, now⟩, ⟨.acquire, .ok ()⟩, ⟨.read, .ok none⟩, ⟨.release, ()⟩] (.ret (.error .notConnected)) := by
    refine follows_ask_bind ?_
    rw [if_pos hdue]
    exact withRefreshLock_follows (l := [⟨.read, .ok none⟩]) (.cons .nil)
  have hcall : (withRenewableAuthorizedCredentialFrom (T := T) S u).run.Follows _ _ :=
    follows_bind (readRenewableRecord_follows hd) (hproactive.bind .nil)
  exact hcall.bind_ret

/-- A renewable call beside another one. -/
def beside (other : CallKind) : Bool → CallKind
  | true => .renewable
  | false => other

theorem run_beside (other : CallKind) {u : E → Bool} {tr : Trace Bool (Answer T E)} {s : Shared Bool}
    {stored : Option Bytes} {p q : Program Request (Answer T E) (Outcome T E)}
    (hs : Steps Exec ⟨stored, none⟩ tr s) (hp : (CallKind.renewable.program S u).Follows (mine true tr) p)
    (hq : (other.program S u).Follows (mine false tr) q) :
    Run Exec anyStep (start S (fun _ => u) (beside other) stored) tr ⟨s, fun i => bif i then p else q⟩ :=
  Run.of_follows hs fun i => by
    cases i with
    | true => exact hp
    | false => exact hq

/-- Another call's last step falls between a renewable call's re-read and
its replace: this is a run, whatever the step. -/
theorem race {other : CallKind} {u : E → Bool} {l : History Unit E} {e : Event (Answer Unit E)}
    {stored : Option Bytes} {q : Program Request (Answer Unit E) (Outcome Unit E)}
    (hd : CredentialRecord.deserializeStructural S b = .ok r) (hdue : r.refreshDue now = true)
    (happly : r.applyRefresh S response now' = .ok r') (hser : r'.serialize S = .ok b')
    (hother : (other.program S u).Follows (l ++ [e]) q)
    (hl : Steps Exec ⟨some b, none⟩ (tagged false l) ⟨some b, none⟩)
    (he : Exec false ⟨some b, some true⟩ e.1 e.2 ⟨stored, some true⟩) :
    ∃ w, Run Exec anyStep (start S (fun _ => u) (beside other) (some b))
        ((tagged false l ++ tagged true ((refreshRun b r now response now' b').take 6)) ++
          (false, e) :: [(true, ⟨.replace b', .ok ()⟩)]) w ∧
      w.prog false = q ∧ w.shared.store = some b' := by
  obtain ⟨p, hp⟩ := program_refreshes (u := u) hd hdue happly hser
  have hsteps : Steps Exec ⟨some b, none⟩ ((tagged false l ++ tagged true ((refreshRun b r now response now' b').take 6)) ++
      (false, e) :: [(true, ⟨.replace b', .ok ()⟩)]) ⟨some b', some true⟩ :=
    (hl.append (steps_refreshing true)).append (.cons he (.cons (.replace _ _) .nil))
  have h₁ := mine_tagged_other (show false ≠ true by decide) l
  have h₂ := mine_tagged_other (show true ≠ false by decide)
    ((refreshRun (T := Unit) (E := E) b r now response now' b').take 6)
  refine ⟨_, run_beside other (p := p) hsteps ?_ ?_, rfl, rfl⟩
  · simpa [h₁, mine_cons_other (show false ≠ true by decide)] using hp
  · simpa [h₂, mine_cons_self, mine_other (show true ≠ false by decide)] using hother

end

/-- **A logout stands up to the refreshes that read the store before it**:
once its delete has succeeded, and no login writes the store afterwards,
the store is empty, unless a renewable call that last read it before the
delete has replaced it since. -/
theorem logout_stands {i : ι} {d : DeleteOutcome}
    (hrun : Run Exec anyStep (start S isUnauthorized kind store) tr w)
    (htr : tr = pre ++ (i, ⟨.delete, .ok d⟩) :: post)
    (hlogin : ∀ j b, kind j = .login → (j, ⟨.replace b, .ok ()⟩) ∉ post) :
    w.shared.store = none ∨ StaleReplace kind post := by
  subst htr
  refine kept_or_stale (P := (· = none)) hrun (fun _ => rfl) (fun j e he hk stored hs => ?_)
    fun _ _ _ _ _ _ hb => nomatch hb
  obtain ⟨p, q, rfl⟩ := List.append_of_mem he
  have hrun' : Run Exec anyStep (start S isUnauthorized kind store)
      ((pre ++ (i, ⟨.delete, .ok d⟩) :: p) ++ (j, e) :: q) w := by simpa using hrun
  have hg := run_guar hrun'
  subst hs
  obtain ⟨r, a⟩ := e
  cases r with
  | replace b =>
    cases a with
    | error _ => rfl
    | ok u =>
      cases hj : kind j with
      | renewable => exact absurd hj hk
      | login => exact absurd he (hlogin j b hj)
      | logout => exact absurd hj (CallKind.guar_replace hg)
  | delete => cases a <;> rfl
  | _ => rfl

/-- The delete of a logout falls between the re-read and the replace of a
refresh: the logout has returned, no call logs in, and the store holds the
refreshed record. -/
theorem logout_undone : ∃ (pre post : Trace Bool (Answer Unit Unit))
    (w : World Bool Request (Answer Unit Unit) (Outcome Unit Unit) (Shared Bool)),
    Run Exec anyStep (start serdeJson (fun _ _ => true) (beside .logout)
      (some (Json.render sampleRecord.toJson))) (pre ++ (false, ⟨.delete, .ok .deleted⟩) :: post) w ∧
    w.prog false = .ret (.logout (.ok ())) ∧ w.shared.store = some (Json.render sampleRefreshed.toJson) := by
  have hlogout := program_logsOut (T := Unit) serdeJson (fun _ : Unit => true) .deleted
  obtain ⟨w, hrun, hw⟩ := race (l := []) sample_stored sample_due sample_applyRefresh rfl hlogout .nil (.delete _ _ rfl)
  exact ⟨_, _, w, hrun, hw⟩

/-- The delete of a logout falls between the acquire and the re-read of a
refresh, which finds nothing and stores nothing. -/
theorem logout_stands_sample : ∃ w : World Bool Request (Answer Unit Unit) (Outcome Unit Unit) (Shared Bool),
    Run Exec anyStep (start serdeJson (fun _ _ => true) (beside .logout) (some (Json.render sampleRecord.toJson)))
      ([(true, ⟨.read, .ok (some (Json.render sampleRecord.toJson))⟩), (true, ⟨.unixSeconds, (1000 : UInt64)⟩),
          (true, ⟨.acquire, .ok ()⟩)] ++
        (false, ⟨.delete, .ok .deleted⟩) :: [(true, ⟨.read, .ok none⟩), (true, ⟨.release, ()⟩)]) w ∧
    w.prog true = .ret (.renewable (.error .notConnected)) ∧ w.shared.store = none := by
  have hsteps : Steps (Exec (T := Unit) (E := Unit)) ⟨some (Json.render sampleRecord.toJson), none⟩
      ([(true, ⟨.read, .ok (some (Json.render sampleRecord.toJson))⟩), (true, ⟨.unixSeconds, (1000 : UInt64)⟩),
          (true, ⟨.acquire, .ok ()⟩)] ++
        (false, ⟨.delete, .ok .deleted⟩) :: [(true, ⟨.read, .ok none⟩), (true, ⟨.release, ()⟩)]) ⟨none, none⟩ :=
    .cons (.read _) (.cons (.unixSeconds _ _) (.cons (.acquire _ rfl) (.cons (.delete _ _ rfl) (.cons (.read _)
      (.cons (.release _) .nil)))))
  have hrun := run_beside .logout (S := serdeJson) (u := fun _ => true) hsteps
    (program_disconnected sample_stored sample_due) (program_logsOut serdeJson _ .deleted)
  have hfresh : ¬StaleReplace (beside .logout)
      ([(true, ⟨.read, .ok none⟩), (true, ⟨.release, ()⟩)] : Trace Bool (Answer Unit Unit)) := by
    rintro ⟨pre, i, b, post, htr, -⟩
    have hmem : (i, ⟨.replace b, .ok ()⟩) ∈ ([(true, ⟨.read, .ok none⟩), (true, ⟨.release, ()⟩)] :
      Trace Bool (Answer Unit Unit)) := by simp [htr]
    simp only [List.mem_cons, Prod.mk.injEq, List.not_mem_nil, or_false] at hmem
    rcases hmem with ⟨-, hmem⟩ | ⟨-, hmem⟩ <;> cases hmem
  refine ⟨_, hrun, rfl, (logout_stands hrun rfl fun j b hj => ?_).resolve_right hfresh⟩
  cases j <;> cases hj

/-- `b'` is `b` after some refreshes. -/
inductive RefreshChain (S : SerdeJson) (b : Bytes) : Bytes → Prop
  | refl : RefreshChain S b b
  | step {b₁ r response now r' b₂} : RefreshChain S b b₁ → CredentialRecord.deserializeStructural S b₁ = .ok r →
      r.applyRefresh S response now = .ok r' → r'.serialize S = .ok b₂ → RefreshChain S b b₂

/-- **A login stands up to the refreshes that read the store before it**:
once its replace has succeeded (as any call's), and no login or logout
writes the store afterwards, the store holds its record or a refresh of it,
unless a renewable call that last read the store before the replace has
replaced it since. -/
theorem login_stands {i : ι} {b : Bytes}
    (hrun : Run Exec anyStep (start S isUnauthorized kind store) tr w)
    (htr : tr = pre ++ (i, ⟨.replace b, .ok ()⟩) :: post)
    (hlater : ∀ j, kind j ≠ .renewable → (∀ b', (j, ⟨.replace b', .ok ()⟩) ∉ post) ∧ ∀ d, (j, ⟨.delete, .ok d⟩) ∉ post) :
    (∃ b', w.shared.store = some b' ∧ RefreshChain S b b') ∨ StaleReplace kind post := by
  subst htr
  refine kept_or_stale (P := fun x => ∃ b', x = some b' ∧ RefreshChain S b b') hrun (fun _ => ⟨b, rfl, .refl⟩)
    (fun j e he hj stored _ => ?_) fun b₁ r response now r' b₂ hb hd happly hser => ?_
  · obtain ⟨hrep, hdel⟩ := hlater j hj
    obtain ⟨r, a⟩ := e
    cases r with
    | replace b' =>
      cases a with
      | error _ => rfl
      | ok u => exact absurd he (hrep b')
    | delete =>
      cases a with
      | error _ => rfl
      | ok d => exact absurd he (hdel d)
    | _ => rfl
  · obtain ⟨b', hb', hchain⟩ := hb
    cases hb'
    exact ⟨b₂, rfl, hchain.step hd happly hser⟩

/-- A refresh keeps the account. -/
theorem RefreshChain.account {b b' : Bytes} {r : CredentialRecord} (hc : RefreshChain S b b')
    (hd : CredentialRecord.deserializeStructural S b = .ok r) :
    ∃ r', CredentialRecord.deserializeStructural S b' = .ok r' ∧ r'.chatgptAccountId = r.chatgptAccountId := by
  induction hc with
  | refl => exact ⟨r, hd, rfl⟩
  | step _ hd₁ happly hser ih =>
    obtain ⟨r₁, hr₁, hacc⟩ := ih
    obtain rfl := Except.ok.inj (hr₁.symm.trans hd₁)
    refine ⟨_, CredentialRecord.deserializeStructural_refreshed
      (CredentialRecord.deserializeStructural_ok_iff.mp hd₁).2.2 happly hser, ?_⟩
    rw [CredentialRecord.applyRefresh_accountId happly, hacc]

/-- The replace of a login falls between the re-read and the replace of a
refresh: nothing else writes the store, and it holds a record of the
account before the login, which no refresh of the login's record leads to. -/
theorem login_lost : ∃ (pre post : Trace Bool (Answer Unit Unit))
    (w : World Bool Request (Answer Unit Unit) (Outcome Unit Unit) (Shared Bool)),
    Run Exec anyStep (start serdeJson (fun _ _ => true) (beside .login)
      (some (Json.render sampleRecord.toJson)))
      (pre ++ (false, ⟨.replace (Json.render sampleLoggedIn.toJson), .ok ()⟩) :: post) w ∧
    (∀ e, (false, e) ∉ post) ∧
    ¬∃ b', w.shared.store = some b' ∧ RefreshChain serdeJson (Json.render sampleLoggedIn.toJson) b' := by
  have hlogin : (CallKind.login.program serdeJson (fun _ : Unit => true)).Follows
      ((loginRun "code" sampleLogin 1000 (Json.render sampleLoggedIn.toJson)).take 5 ++
        [⟨.replace (Json.render sampleLoggedIn.toJson), .ok ()⟩]) (_ : Program Request (Answer Unit Unit) _) :=
    program_logsIn _ sample_validate rfl "code"
  have hl : Steps (Exec (T := Unit) (E := Unit)) ⟨some (Json.render sampleRecord.toJson), none⟩
      (tagged false ((loginRun "code" sampleLogin 1000 (Json.render sampleLoggedIn.toJson)).take 5)) ⟨_, none⟩ :=
    .cons (.bindCallback _ _) (.cons (.openBrowser _ _) (.cons (.waitCallback _ _) (.cons (.exchangeCode _ _ _)
      (.cons (.unixSeconds _ _) .nil))))
  obtain ⟨w, hrun, -, hw⟩ := race sample_stored sample_due sample_applyRefresh rfl hlogin hl (.replace _ _)
  refine ⟨_, _, w, hrun, fun e he => by simp at he, fun ⟨b', hb', hc⟩ => ?_⟩
  rw [hw] at hb'
  cases hb'
  obtain ⟨r', hd', hacc⟩ := hc.account sample_loggedIn
  have hd₁ := CredentialRecord.deserializeStructural_refreshed
    (CredentialRecord.deserializeStructural_ok_iff.mp sample_stored).2.2 sample_applyRefresh rfl
  obtain rfl := Except.ok.inj (hd'.symm.trans hd₁)
  exact absurd hacc (by decide)

/-- A renewable call that begins after a login reads its record. -/
theorem login_stands_before_read : ∃ (pre post : Trace Bool (Answer Unit Unit))
    (w : World Bool Request (Answer Unit Unit) (Outcome Unit Unit) (Shared Bool)),
    Run Exec anyStep (start serdeJson (fun _ _ => true) (beside .login) none)
      (pre ++ (false, ⟨.replace (Json.render sampleLoggedIn.toJson), .ok ()⟩) :: post) w ∧
    ((∃ b', w.shared.store = some b' ∧ RefreshChain serdeJson (Json.render sampleLoggedIn.toJson) b') ∨
      StaleReplace (beside .login) post) := by
  have hsteps : Steps (Exec (T := Unit) (E := Unit)) ⟨none, none⟩
      (tagged false ((loginRun "code" sampleLogin 1000 (Json.render sampleLoggedIn.toJson)).take 5) ++
        (false, ⟨.replace (Json.render sampleLoggedIn.toJson), .ok ()⟩) ::
          [(true, ⟨.read, .ok (some (Json.render sampleLoggedIn.toJson))⟩)])
      ⟨some (Json.render sampleLoggedIn.toJson), none⟩ :=
    .cons (.bindCallback _ _) (.cons (.openBrowser _ _) (.cons (.waitCallback _ _) (.cons (.exchangeCode _ _ _)
      (.cons (.unixSeconds _ _) (.cons (.replace _ _) (.cons (.read _) .nil))))))
  have hrun := run_beside .login (S := serdeJson) (u := fun _ => true) hsteps (.cons .nil)
    (program_logsIn _ sample_validate rfl "code")
  refine ⟨_, _, _, hrun, login_stands hrun rfl fun j hj => ?_⟩
  cases j with
  | true => exact absurd rfl hj
  | false => simp

/-! ## Refresh tokens are spent once -/

/-- A refresh token that a response carries has not been sent before. -/
def TokensNew : StepCond ι (Answer T E) (Shared ι) := fun tr _ _ e =>
  ∀ t response t', e = ⟨.refresh t, .ok response⟩ → response.refreshToken = some t' →
    t' ≠ t ∧ ∀ j x, (j, ⟨.refresh t', x⟩) ∉ tr

/-- A call that holds the lock and did not before has acquired it since. -/
theorem exists_acquire {h h' : History T E} (hn : holdsLock h = false) (hh : holdsLock (h ++ h') = true) :
    ∃ e ∈ h', e.1 = Request.acquire := by
  induction h' using List.reverseRecOn with
  | nil => rw [List.append_nil, hn] at hh; exact nomatch hh
  | append_singleton h' e ih =>
    rw [← List.append_assoc, holdsLock_snoc] at hh
    by_cases he : e.1 = .acquire
    · exact ⟨e, by simp, he⟩
    · have hh' : holdsLock (h ++ h') = true := by
        obtain ⟨r, a⟩ := e
        cases r with
        | acquire => exact absurd rfl he
        | release => exact nomatch hh
        | _ => exact hh
      obtain ⟨e', he', ha⟩ := ih hh'
      exact ⟨e', List.mem_append_left _ he', ha⟩

/-- What is refreshed under the lock by a call that did not hold it before
was read since. -/
theorem reread_since {h h' h₁ l : History T E} {b : Bytes} (hn : holdsLock h = false)
    (hh : holdsLock (h ++ h') = true)
    (heq : h ++ h' = h₁ ++ ⟨.acquire, .ok ()⟩ :: ⟨.read, .ok (some b)⟩ :: l) (hl : ∀ e ∈ l, e.1 ≠ Request.acquire) :
    ∃ h₂, h' = h₂ ++ ⟨.acquire, .ok ()⟩ :: ⟨.read, .ok (some b)⟩ :: l := by
  refine suffix_of_mem heq (exists_acquire hn hh) fun e he => ?_
  rcases List.mem_cons.mp he with rfl | he
  · exact nofun
  · exact hl e he

/-- The one refresh of a history is the one its replace follows. -/
theorem refreshed_eq {h h' : History T E} {t : String} {x : Except RefreshError RefreshResponse} {b : Bytes}
    (hc : count .refresh (h ++ ⟨.refresh t, x⟩ :: h') = 1)
    (hr : RefreshedUnderLock S (h ++ ⟨.refresh t, x⟩ :: h') b) :
    ∃ b₀ r response now r', x = .ok response ∧ t = r.refreshToken ∧
      CredentialRecord.deserializeStructural S b₀ = .ok r ∧ r.applyRefresh S response now = .ok r' ∧
      r'.serialize S = .ok b := by
  obtain ⟨h₁, b₀, r, response, now, r', heq, hd, happly, hser⟩ := hr
  have hsplit : h ++ ⟨.refresh t, x⟩ :: h' = (h₁ ++ [⟨.acquire, .ok ()⟩, ⟨.read, .ok (some b₀)⟩]) ++
      ⟨.refresh r.refreshToken, .ok response⟩ :: [⟨.unixSeconds, now⟩] := by simpa using heq
  rw [hsplit] at hc
  let p (e : Event (Answer T E)) : Bool := decide (e.1.kind = .refresh)
  obtain ⟨-, he, -⟩ := eq_of_append_cons_eq (p := p) hsplit rfl rfl
    (by simp [Request.kind] at hc; simpa [count, p, Request.kind] using hc) (by simp [p, Request.kind])
  cases he
  exact ⟨b₀, r, response, now, r', rfl, rfl, hd, happly, hser⟩

/-- A renewable call that holds the lock it did not hold at first, at a
refresh or a replace: it has re-read the store since. -/
theorem reread_of_guar {u : E → Bool} {h h' : History T E} (hn : holdsLock h = false) :
    (∀ t, requestGuar S u (h ++ h') (.refresh t) → ∃ b r, rereadBytes h' = some b ∧
      CredentialRecord.deserializeStructural S b = .ok r ∧ t = r.refreshToken) ∧
    (∀ b, requestGuar S u (h ++ h') (.replace b) → ∃ x, ⟨.read, x⟩ ∈ h') := by
  refine ⟨fun t hg => ?_, fun b hg => ?_⟩
  · obtain ⟨hheld, -, b, r, ⟨⟨h₁, heq⟩, hd⟩, ht⟩ := hg
    obtain ⟨h₂, rfl⟩ := reread_since hn hheld heq fun _ he => absurd he List.not_mem_nil
    exact ⟨b, r, by simp [rereadBytes, noteReread], hd, ht⟩
  · obtain ⟨hheld, -, -, h₁, b₀, r, response, now, r', heq, -⟩ := hg
    obtain ⟨h₂, rfl⟩ := reread_since hn hheld heq fun e he => by
      simp only [List.mem_cons, List.not_mem_nil, or_false] at he
      rcases he with rfl | rfl <;> simp
    exact ⟨.ok (some b₀), by simp⟩

/-- The record stored, if there is one, has another refresh token than `t`. -/
def OtherToken (S : SerdeJson) (t : String) (stored : Option Bytes) : Prop :=
  ∀ b r, stored = some b → CredentialRecord.deserializeStructural S b = .ok r → r.refreshToken ≠ t

theorem OtherToken.refresh {t : String} {b b' : Bytes} {r r' : CredentialRecord} {response : RefreshResponse}
    {now : UInt64} (hd : CredentialRecord.deserializeStructural S b = .ok r)
    (happly : r.applyRefresh S response now = .ok r') (hser : r'.serialize S = .ok b')
    (ht : response.refreshToken.getD r.refreshToken ≠ t) : OtherToken S t (some b') := by
  intro b₁ r₁ hb₁ hd₁
  cases hb₁
  have hv := CredentialRecord.deserializeStructural_refreshed
    (CredentialRecord.deserializeStructural_ok_iff.mp hd).2.2 happly hser
  obtain rfl : r₁ = r' := Except.ok.inj (hd₁.symm.trans hv)
  rw [CredentialRecord.applyRefresh_refreshToken happly]
  exact ht

/-- From a point on where `i`, done with its refresh, holds the lock and
another token than `t` is stored: if no response brings `t` back, it is not
sent. -/
theorem spent_not_sent {h : ι → History T E} {i : ι} {t : String}
    (hlock : ∀ l, holdsLock (h l) = true ↔ m.shared.lock = some l) (hi : m.shared.lock = some i)
    (hkeep : KeepContracts S isUnauthorized (fun _ => .renewable) h m)
    (hdone : 0 < count .refresh (h i) ∧ 0 < count .replace (h i)) (hstore : OtherToken S t m.shared.store)
    (hok : ∀ tr s l t₂ response, ok tr s l ⟨.refresh t₂, .ok response⟩ → response.refreshToken ≠ some t)
    (hrun : Run Exec ok m post w) (j : ι) (x : Except RefreshError RefreshResponse) :
    (j, ⟨.refresh t, x⟩) ∉ post := by
  have hfree : ∀ l, l ≠ i → holdsLock (h l) = false := fun l hl => by
    by_contra hh
    have hl' := (hlock l).mp (by simpa using hh)
    exact hl (Option.some.inj (hl'.symm.trans hi))
  have hread : ∀ tr s l b', ok tr s l ⟨.replace b', .ok ()⟩ → CallKind.renewable = .renewable →
      requestGuar S (isUnauthorized l) (h l ++ mine l tr) (.replace b') → ∃ y, (l, ⟨.read, y⟩) ∈ tr := by
    intro tr s l b' _ _ hg
    have hli : l ≠ i := by
      intro heq
      subst heq
      have hnone : count .replace (h l ++ mine l tr) = 0 := hg.2.1
      rw [count_append] at hnone
      omega
    obtain ⟨y, hy⟩ := (reread_of_guar (hfree l hli)).2 b' hg
    exact ⟨y, mem_mine.mp hy⟩
  have hrefresh : ∀ b₁ r response now r' b₂, OtherToken S t (some b₁) →
      CredentialRecord.deserializeStructural S b₁ = .ok r → response.refreshToken ≠ some t →
      r.applyRefresh S response now = .ok r' → r'.serialize S = .ok b₂ → OtherToken S t (some b₂) := by
    intro b₁ r response now r' b₂ hb hd hR happly hser
    refine OtherToken.refresh hd happly hser ?_
    cases hresp : response.refreshToken with
    | none => exact hb b₁ r rfl hd
    | some t' =>
      intro heq
      subst heq
      exact hR hresp
  intro hmem
  obtain ⟨p, q, rfl⟩ := List.append_of_mem hmem
  obtain ⟨m₂, k₂, s₂, hp, hask, -⟩ := hrun.split_at
  obtain ⟨⟨hc, hother⟩, hkeep₂⟩ := run_coordinated hlock hkeep hstore (fun _ _ _ _ _ _ hk => absurd rfl hk) hread hok
    hrefresh hp
  -- the token sent is the one stored at that point
  have hg := hkeep₂ j
  rw [hask] at hg
  have hji : j ≠ i := by
    intro heq
    subst heq
    have hnone : count .refresh (h j ++ mine j p) = 0 := hg.1.2.2.1
    rw [count_append] at hnone
    omega
  obtain ⟨b, r, hread, hd, ht⟩ := (reread_of_guar (hfree j hji)).1 t hg.1.2
  exact hother b r (hc.reread j b hread ((hc.lock j).mp hg.1.2.1)) hd ht.symm

/-- **A refresh token is spent once.** Over every run of renewable calls in
which no response carries a token that was sent before: once a refresh with
`t` has brought a new token and the replace that follows it has succeeded,
`t` is not sent again. -/
theorem refreshToken_spentOnce {i : ι} {t : String} {response : RefreshResponse} {b : Bytes}
    {mid : Trace ι (Answer T E)}
    (hrun : Run Exec TokensNew (start S isUnauthorized (fun _ => .renewable) store) tr w)
    (htr : tr = pre ++ (i, ⟨.refresh t, .ok response⟩) :: (mid ++ (i, ⟨.replace b, .ok ()⟩) :: post))
    (hnew : response.refreshToken.isSome = true) (j : ι) (x : Except RefreshError RefreshResponse) :
    (j, ⟨.refresh t, x⟩) ∉ post := by
  subst htr
  -- the response's token is not `t`
  obtain ⟨_, _, _, _, _, _, hnewAt, _⟩ := hrun.split_at
  obtain ⟨t', ht'⟩ := Option.isSome_iff_exists.mp hnew
  have htt' : t' ≠ t := (hnewAt t response t' rfl ht').1
  -- the world at the replace
  have hassoc : pre ++ (i, ⟨.refresh t, .ok response⟩) :: (mid ++ (i, ⟨.replace b, .ok ()⟩) :: post) =
      (pre ++ (i, ⟨.refresh t, .ok response⟩) :: mid) ++ (i, ⟨.replace b, .ok ()⟩) :: post := by simp
  rw [hassoc] at hrun
  obtain ⟨-, hheld, -, hone, hrefreshed⟩ := run_guar hrun
  obtain ⟨m, k, s', hpre, hask, hx, hok, hpost⟩ := hrun.split_at
  have hmine : mine i (pre ++ (i, ⟨.refresh t, .ok response⟩) :: mid) =
      mine i pre ++ ⟨.refresh t, .ok response⟩ :: mine i mid := by rw [mine_append, mine_cons_self]
  rw [hmine] at hone hrefreshed
  obtain ⟨b₀, r, response', now, r', hresp, ht, hd, happly, hser⟩ := refreshed_eq hone hrefreshed
  cases hresp
  have hrun₁ : Run Exec TokensNew (start S isUnauthorized (fun _ => .renewable) store)
    ((pre ++ (i, ⟨.refresh t, .ok response⟩) :: mid) ++ [(i, ⟨.replace b, .ok ()⟩)]) _ := .snoc hpre hask hx hok
  obtain ⟨hlock, hkeep⟩ := run_lockHeld hrun₁
  refine spent_not_sent (i := i) hlock ?_ hkeep ?_ ?_ (fun tr s l t₂ response₂ ho hback => ?_) hpost j x
  · rw [World.advance_shared, hx.lock_eq]
    exact ((run_lockHeld hpre).1 i).mp hheld
  · rw [mine_append, hmine, mine_self]
    simp only [count_append, count_cons, Request.kind, if_true]
    omega
  · rw [World.advance_shared, hx.store_eq]
    exact OtherToken.refresh hd happly hser (by rw [ht']; exact htt')
  · exact (ho t₂ response₂ t rfl hback).2 i (.ok response) (by simp)

/-- The sample record refreshed by one call, and read by another after the replace. -/
theorem refreshToken_spentOnce_sample : ∃ (pre mid post : Trace Bool (Answer Unit Unit))
    (w : World Bool Request (Answer Unit Unit) (Outcome Unit Unit) (Shared Bool)),
    Run Exec TokensNew (start serdeJson (fun _ _ => true) (fun _ => .renewable)
      (some (Json.render sampleRecord.toJson)))
      (pre ++ (true, ⟨.refresh "first", .ok sampleResponse⟩) ::
        (mid ++ (true, ⟨.replace (Json.render sampleRefreshed.toJson), .ok ()⟩) :: post)) w ∧
    (false, ⟨.read, .ok (some (Json.render sampleRefreshed.toJson))⟩) ∈ post ∧
    ∀ j x, (j, ⟨.refresh "first", x⟩) ∉ post := by
  obtain ⟨p, hp⟩ := program_refreshes (u := fun _ : Unit => true) sample_stored sample_due sample_applyRefresh rfl
  generalize hb : Json.render sampleRecord.toJson = b at hp
  generalize hb' : Json.render sampleRefreshed.toJson = b' at hp
  let run : Trace Bool (Answer Unit Unit) :=
    tagged true ((refreshRun b sampleRecord 1000 sampleResponse 1000 b').take 6) ++
      [(true, ⟨.replace b', .ok ()⟩), (false, ⟨.read, .ok (some b')⟩)]
  have hsteps : Steps Exec ⟨some b, none⟩ run ⟨some b', some true⟩ :=
    (steps_refreshing true).append (.cons (.replace _ _) (.cons (.read _) .nil))
  have hbeside := run_beside .renewable (S := serdeJson) (u := fun _ => true) hsteps hp (.cons .nil)
  have hkinds : beside .renewable = fun _ => .renewable := funext fun i => by cases i <;> rfl
  rw [hkinds] at hbeside
  have hsent : ∀ x ∈ run, ∀ t y, x.2 = ⟨.refresh t, y⟩ → t = "first" ∧ y = .ok sampleResponse := by
    intro x hx t y he
    simp only [run, tagged, refreshRun, List.take_succ_cons, List.take_zero, List.map_cons, List.map_nil,
      List.cons_append, List.nil_append, List.mem_cons, List.not_mem_nil, or_false] at hx
    rcases hx with rfl | rfl | rfl | rfl | rfl | rfl | rfl | rfl
    case inr.inr.inr.inr.inl => cases he; exact ⟨rfl, rfl⟩
    all_goals exact nomatch he
  have hnew : ∀ pre i e post (s : Shared Bool), run = pre ++ (i, e) :: post → TokensNew pre s i e := by
    intro pre i e post s he t response t' hr ht'
    obtain ⟨rfl, hresp⟩ := hsent (i, e) (by rw [he]; simp) t _ hr
    cases hresp
    cases ht'
    refine ⟨by decide, fun j x hx => ?_⟩
    exact absurd (hsent (j, ⟨.refresh "second", x⟩) (by rw [he]; simp [hx]) "second" x rfl).1 (by decide)
  have hrun := (hbeside.strengthen TokensNew hnew).mono fun _ _ _ _ ho => ho.2
  have htr : run = tagged true ((refreshRun b sampleRecord 1000 sampleResponse 1000 b').take 4) ++
      (true, ⟨.refresh "first", .ok sampleResponse⟩) :: ([(true, ⟨.unixSeconds, (1000 : UInt64)⟩)] ++
        (true, ⟨.replace b', .ok ()⟩) :: [(false, ⟨.read, .ok (some b')⟩)]) := rfl
  exact ⟨_, _, _, _, htr ▸ hrun, by simp, refreshToken_spentOnce hrun htr (by decide)⟩

end AgentHarness.Auth
