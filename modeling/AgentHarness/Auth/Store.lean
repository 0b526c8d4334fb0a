/-
Any number of calls against one credential store and one refresh lock, in
any order of their requests. The store's reads, replaces and deletes are
atomic and the lock is held by one call at a time; everything else may
answer anything, and every request that can fail may fail.

A call is one party. A process that makes several calls is several parties
here, one after the other among all the orders.
-/
import AgentHarness.Auth.Renewable
import AgentHarness.Lib.Interleave

namespace AgentHarness.Auth

open Text Except Interact

variable {ι T E : Type}

/-! ## The shared state -/

structure Shared (ι : Type) where
  store : Option Bytes
  lock : Option ι

/-- What each request does, and the answers it can get. -/
inductive Exec (i : ι) : Shared ι → (r : Request) → Answer T E r → Shared ι → Prop
  | read (s) : Exec i s .read (.ok s.store) s
  | readFails (s e) : Exec i s .read (.error e) s
  | replace (s b) : Exec i s (.replace b) (.ok ()) { s with store := some b }
  | replaceFails (s b e) : Exec i s (.replace b) (.error e) s
  | delete (s b) : s.store = some b → Exec i s .delete (.ok .deleted) { s with store := none }
  | deleteAbsent (s) : s.store = none → Exec i s .delete (.ok .absent) s
  | deleteFails (s e) : Exec i s .delete (.error e) s
  | acquire (s) : s.lock = none → Exec i s .acquire (.ok ()) { s with lock := some i }
  | acquireFails (s e) : Exec i s .acquire (.error e) s
  | release (s) : Exec i s .release () { s with lock := none }
  | unixSeconds (s now) : Exec i s .unixSeconds now s
  | refresh (s t x) : Exec i s (.refresh t) x s
  | operation (s c x) : Exec i s (.operation c) x s
  | bindCallback (s x) : Exec i s .bindCallback x s
  | openBrowser (s x) : Exec i s .openBrowser x s
  | waitCallback (s x) : Exec i s .waitCallback x s
  | exchangeCode (s code x) : Exec i s (.exchangeCode code) x s

/-! ## The calls -/

inductive CallKind where
  | renewable
  | login
  | logout
  deriving DecidableEq, Repr

inductive Outcome (T E : Type) where
  | renewable (result : Except CredentialUseError (Except E T))
  | login (result : Except LoginError ConnectedAccount)
  | logout (result : Except LogoutError Unit)

section
variable (S : SerdeJson)

def CallKind.program (isUnauthorized : E → Bool) : CallKind → Program Request (Answer T E) (Outcome T E)
  | .renewable => (withRenewableAuthorizedCredentialFrom S isUnauthorized).run.bind fun x => .ret (.renewable x)
  | .login => (loginWith S).run.bind fun x => .ret (.login x)
  | .logout => logoutWith.run.bind fun x => .ret (.logout x)

/-- What a login asks for: its own exchange, the clock, and one replace. -/
def loginGuar (_ : History T E) (r : Request) : Prop := r.kind = .other ∨ r.kind = .clock ∨ r.kind = .replace

def logoutGuar (_ : History T E) (r : Request) : Prop := r = .delete

def CallKind.contract (isUnauthorized : E → Bool) : CallKind → Contract Request (Answer T E)
  | .renewable => callContract S isUnauthorized
  | .login => .free loginGuar
  | .logout => .free logoutGuar

theorem loginWith_meets : (loginWith S).run.Meets (.free (loginGuar (T := T) (E := E))) (fun _ _ => True) [] := by
  refine meets_ask_bind.mpr ⟨.inl rfl, fun _ _ => meets_exit_bind.mpr ⟨fun _ _ => trivial, fun _ _ => ?_⟩⟩
  refine meets_ask_bind.mpr ⟨.inl rfl, fun _ _ => meets_ask_bind.mpr ⟨.inl rfl, fun _ _ => ?_⟩⟩
  refine meets_exit_bind.mpr ⟨fun _ _ => trivial, fun _ _ => meets_exit_bind.mpr ⟨fun _ _ => trivial, fun _ _ => ?_⟩⟩
  refine meets_ask_bind.mpr ⟨.inl rfl, fun _ _ => meets_exit_bind.mpr ⟨fun _ _ => trivial, fun _ _ => ?_⟩⟩
  refine meets_ask_bind.mpr ⟨.inr (.inl rfl), fun _ _ => ?_⟩
  refine meets_exit_bind.mpr ⟨fun _ _ => trivial, fun _ _ => meets_exit_bind.mpr ⟨fun _ _ => trivial, fun _ _ => ?_⟩⟩
  refine meets_ask_bind.mpr ⟨.inr (.inr rfl), fun _ _ => meets_exit_bind.mpr ⟨fun _ _ => trivial, fun _ _ => ?_⟩⟩
  exact meets_pure.mpr trivial

theorem logoutWith_meets :
    (logoutWith (T := T) (E := E)).run.Meets (.free logoutGuar) (fun _ _ => True) [] := by
  refine meets_ask_bind.mpr ⟨rfl, fun a _ => meets_exit_bind.mpr ⟨fun _ _ => trivial, fun x _ => ?_⟩⟩
  cases x <;> exact meets_pure.mpr trivial

/-- Every call keeps its contract. -/
theorem CallKind.program_meets (isUnauthorized : E → Bool) (k : CallKind) :
    (k.program (T := T) S isUnauthorized).Meets (k.contract S isUnauthorized) (fun _ _ => True) [] := by
  cases k with
  | renewable => exact (withRenewable_meets S isUnauthorized).bind fun _ _ _ => trivial
  | login => exact (loginWith_meets S).bind fun _ _ _ => trivial
  | logout => exact logoutWith_meets.bind fun _ _ _ => trivial

/-- A login for which everything goes well. -/
def loginRun (code : String) (response : TokenResponse) (now : UInt64) (b : Bytes) : History T E :=
  [⟨.bindCallback, .ok ()⟩, ⟨.openBrowser, .ok ()⟩, ⟨.waitCallback, .ok (.code code)⟩,
    ⟨.exchangeCode code, .ok response⟩, ⟨.unixSeconds, now⟩, ⟨.replace b, .ok ()⟩]

theorem loginWith_follows {S : SerdeJson} {response : TokenResponse} {now : UInt64} {r : CredentialRecord} {b : Bytes}
    (hv : CredentialRecord.validate S response now = .ok r) (hser : r.serialize S = .ok b) (code : String) :
    (loginWith (T := T) (E := E) S).run.Follows (loginRun code response now b)
      (.ret (.ok { email := r.email, plan := r.plan })) := by
  refine follows_ask_bind (follows_exit_bind rfl (follows_ask_bind (follows_ask_bind (follows_exit_bind rfl
    (follows_exit_bind rfl (follows_ask_bind (follows_exit_bind rfl (follows_ask_bind ?_))))))))
  rw [hv]
  refine follows_exit_bind rfl ?_
  rw [hser]
  exact follows_exit_bind rfl (follows_ask_bind (follows_exit_bind rfl .nil))

theorem program_logsIn {S : SerdeJson} {response : TokenResponse} {now : UInt64} {r : CredentialRecord} {b : Bytes}
    (u : E → Bool) (hv : CredentialRecord.validate S response now = .ok r) (hser : r.serialize S = .ok b)
    (code : String) : (CallKind.login.program (T := T) S u).Follows (loginRun code response now b)
      (.ret (.login (.ok { email := r.email, plan := r.plan }))) :=
  Program.Follows.bind_ret (loginWith_follows hv hser code)

/-- A logout returns once its delete has succeeded. -/
theorem program_logsOut (u : E → Bool) (d : DeleteOutcome) :
    (CallKind.logout.program (T := T) S u).Follows [⟨.delete, .ok d⟩] (.ret (.logout (.ok ()))) := by
  have h : (logoutWith (T := T) (E := E)).run.Follows [⟨.delete, .ok d⟩] (.ret (.ok ())) := by
    refine follows_ask_bind (follows_exit_bind rfl ?_)
    cases d <;> exact .nil
  exact h.bind_ret

end

/-! ## What a step does to the store and the lock -/

def lockEffect (i : ι) (lock : Option ι) : Event (Answer T E) → Option ι
  | ⟨.acquire, .ok _⟩ => some i
  | ⟨.release, _⟩ => none
  | _ => lock

section
variable {i : ι} {s s' : Shared ι} {r : Request} {a : Answer T E r}

theorem Exec.store_eq (hx : Exec i s r a s') : s'.store = storeEffect s.store ⟨r, a⟩ := by
  cases hx with
  | deleteAbsent h => exact h
  | _ => rfl

theorem Exec.lock_eq (hx : Exec i s r a s') : s'.lock = lockEffect i s.lock ⟨r, a⟩ := by
  cases hx <;> rfl

theorem Exec.read_eq {x : Option Bytes} (hx : Exec (T := T) (E := E) i s .read (.ok x) s') : x = s.store := by
  cases hx; rfl

theorem Exec.acquire_free (hx : Exec (T := T) (E := E) i s .acquire (.ok ()) s') : s.lock = none := by
  cases hx; assumption

theorem Exec.lock_back {j : ι} (hx : Exec i s r a s') (hij : i ≠ j) (hj : s'.lock = some j) : s.lock = some j := by
  rw [hx.lock_eq] at hj
  cases r with
  | acquire =>
    cases a with
    | error e => exact hj
    | ok u => exact absurd (Option.some.inj hj) hij
  | release => exact nomatch hj
  | _ => exact hj

end

/-- The bytes a call has read and done nothing about. -/
def noteReread (last : Option Bytes) : Event (Answer T E) → Option Bytes
  | ⟨.read, .ok b⟩ => b
  | ⟨.read, .error _⟩ | ⟨.replace _, _⟩ | ⟨.delete, _⟩ | ⟨.acquire, _⟩ | ⟨.release, _⟩ => none
  | _ => last

def rereadBytes (h : History T E) : Option Bytes := h.foldl noteReread none

@[simp] theorem rereadBytes_snoc (h : History T E) (e : Event (Answer T E)) :
    rereadBytes (h ++ [e]) = noteReread (rereadBytes h) e := by simp [rereadBytes]

/-! ## Coordination -/

variable [DecidableEq ι]

/-- Some calls had the histories `h₀` and have since gone through `tr`: the
lock is held by the call that took it last. -/
def LockHeld (h₀ : ι → History T E) (tr : Trace ι (Answer T E)) (s : Shared ι) : Prop :=
  ∀ i, holdsLock (h₀ i ++ mine i tr) = true ↔ s.lock = some i

/-- And the call that holds it, if it has read the store in `tr` since it
took it, knows what the store holds. -/
structure Coordinated (h₀ : ι → History T E) (tr : Trace ι (Answer T E)) (s : Shared ι) : Prop where
  lock : LockHeld h₀ tr s
  reread : ∀ i b, rereadBytes (mine i tr) = some b → s.lock = some i → s.store = some b

section
variable {S : SerdeJson} {isUnauthorized : ι → E → Bool} {kind : ι → CallKind} {h₀ : ι → History T E}
  {tr : Trace ι (Answer T E)} {s s' : Shared ι} {i : ι} {r : Request} {a : Answer T E r}

theorem CallKind.guar_acquire_release {k : CallKind} {u : E → Bool} {h : History T E}
    (hg : (k.contract S u).guar h r) (hr : r = .acquire ∨ r = .release) :
    k = .renewable ∧ (r = .release → holdsLock h = true) := by
  cases k with
  | renewable =>
    refine ⟨rfl, fun h => ?_⟩
    subst h
    exact hg.2
  | login => rcases hr with rfl | rfl <;> rcases hg with h | h | h <;> exact nomatch h
  | logout => rcases hr with rfl | rfl <;> exact nomatch hg

theorem CallKind.guar_replace {k : CallKind} {u : E → Bool} {h : History T E} {b : Bytes}
    (hg : (k.contract S u).guar h (.replace b)) : k ≠ .logout := by
  intro heq
  subst heq
  exact nomatch hg

theorem LockHeld.step (hc : LockHeld h₀ tr s)
    (hg : ((kind i).contract S (isUnauthorized i)).guar (h₀ i ++ mine i tr) r) (hx : Exec i s r a s') :
    LockHeld h₀ (tr ++ [(i, ⟨r, a⟩)]) s' := by
  intro j
  have hl := hc j
  rw [hx.lock_eq, mine_append]
  by_cases hij : i = j
  · subst hij
    rw [mine_self, ← List.append_assoc, holdsLock_snoc]
    cases r with
    | acquire => cases a <;> simp [noteLock, lockEffect, hl]
    | release => simp [noteLock, lockEffect]
    | _ => exact hl
  · rw [mine_other hij, List.append_nil, hl]
    cases r with
    | acquire =>
      cases a with
      | error e => exact Iff.rfl
      | ok u =>
        rw [hx.acquire_free]
        simp [lockEffect, hij]
    | release =>
      have hi := (hc i).mp ((CallKind.guar_acquire_release hg (.inr rfl)).2 rfl)
      rw [hi]
      simp [lockEffect, hij]
    | _ => exact Iff.rfl

/-- While one call holds the lock no other that coordinates changes the store. -/
theorem Coordinated.store_step (hc : Coordinated h₀ tr s)
    (hg : ((kind i).contract S (isUnauthorized i)).guar (h₀ i ++ mine i tr) r) (hx : Exec i s r a s')
    (hquiet : kind i ≠ .renewable → s'.store = s.store) {j : ι} (hij : i ≠ j) (hj : s.lock = some j) :
    s'.store = s.store := by
  by_cases hk : kind i = .renewable
  · rw [hk] at hg
    rw [hx.store_eq]
    cases r with
    | replace b =>
      have hi := (hc.lock i).mp hg.2.1
      rw [hj] at hi
      exact absurd (Option.some.inj hi).symm hij
    | delete => exact hg.2.elim
    | _ => rfl
  · exact hquiet hk

/-- **Coordination is kept** by every step of the calls that coordinate, and
by those of the others that leave the store as it is. -/
theorem Coordinated.step (hc : Coordinated h₀ tr s)
    (hg : ((kind i).contract S (isUnauthorized i)).guar (h₀ i ++ mine i tr) r) (hx : Exec i s r a s')
    (hquiet : kind i ≠ .renewable → s'.store = s.store) : Coordinated h₀ (tr ++ [(i, ⟨r, a⟩)]) s' := by
  refine ⟨hc.lock.step hg hx, fun j b hb hj => ?_⟩
  rw [mine_append] at hb
  by_cases hij : i = j
  · subst hij
    rw [mine_self, rereadBytes_snoc] at hb
    rw [hx.lock_eq] at hj
    rw [hx.store_eq]
    cases r with
    | read =>
      cases a with
      | error e => exact nomatch hb
      | ok x => exact hx.read_eq.symm.trans hb
    | replace _ | delete | acquire | release => exact nomatch hb
    | _ => exact hc.reread i b hb hj
  · rw [mine_other hij, List.append_nil] at hb
    have hj' := hx.lock_back hij hj
    rw [hc.store_step hg hx hquiet hij hj']
    exact hc.reread j b hb hj'

/-! ## A replace writes the refresh of what is stored -/

/-- The end of a history, from an event that happened in its second part. -/
theorem suffix_of_mem {α : Type} {p : α → Prop} {A B H l : List α} {x : α} (h : A ++ B = H ++ x :: l)
    (hB : ∃ y ∈ B, p y) (hl : ∀ y ∈ l, ¬p y) : ∃ B', B = B' ++ x :: l := by
  rcases List.append_eq_append_iff.mp h with ⟨C, -, hC⟩ | ⟨C, -, hC⟩
  · exact ⟨C, hC⟩
  · cases C with
    | nil => exact ⟨[], hC.symm⟩
    | cons c C =>
      obtain ⟨-, rfl⟩ := List.cons.inj hC
      obtain ⟨y, hy, hp⟩ := hB
      exact absurd hp (hl y (List.mem_append_right _ hy))

/-- **A replace after a read of one's own since writes the refresh of what
the store holds.** -/
theorem Coordinated.replace (hc : Coordinated h₀ tr s) (hk : kind i = .renewable) {b : Bytes}
    (hg : ((kind i).contract S (isUnauthorized i)).guar (h₀ i ++ mine i tr) (.replace b))
    (hread : ∃ x, (i, ⟨.read, x⟩) ∈ tr) :
    ∃ b₀ r response now r', s.store = some b₀ ∧ CredentialRecord.deserializeStructural S b₀ = .ok r ∧
      (i, ⟨.refresh r.refreshToken, .ok response⟩) ∈ tr ∧ r.applyRefresh S response now = .ok r' ∧
      r'.serialize S = .ok b := by
  rw [hk] at hg
  obtain ⟨-, hheld, -, -, h₁, b₀, r, response, now, r', hh, hd, happly, hser⟩ := hg
  obtain ⟨x, hx⟩ := hread
  obtain ⟨B, hB⟩ : ∃ B, mine i tr = B ++ [⟨.read, .ok (some b₀)⟩, ⟨.refresh r.refreshToken, .ok response⟩,
      ⟨.unixSeconds, now⟩] := by
    refine suffix_of_mem (p := fun e => e.1 = Request.read) (H := h₁ ++ [⟨.acquire, .ok ()⟩]) (by simpa using hh)
      ⟨⟨.read, x⟩, mem_mine.mpr hx, rfl⟩ fun y hy => ?_
    simp only [List.mem_cons, List.not_mem_nil, or_false] at hy
    rcases hy with rfl | rfl <;> exact nofun
  have hb : rereadBytes (mine i tr) = some b₀ := by rw [hB]; simp [rereadBytes, noteReread]
  refine ⟨b₀, r, response, now, r', hc.reread i b₀ hb ((hc.lock i).mp hheld), hd, ?_, happly, hser⟩
  rw [← mem_mine, hB]
  simp

end

end AgentHarness.Auth
