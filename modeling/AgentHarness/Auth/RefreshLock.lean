/-
Waiting for the refresh lock (`refresh_lock.rs`): an attempt, a look at the
clock, a sleep, and again. However the attempts are answered and however
late the clock is, the wait is over after as many sleeps as fit in its
timeout (`acquire_bounded`).

The loop has fuel for its attempts; with as many as the bound says it never
runs out.
-/
import Mathlib.Algebra.Order.Floor.Div
import Mathlib.Algebra.Order.Floor.Semiring
import AgentHarness.Auth.Calls

namespace AgentHarness.Auth

open Except Interact

/-! ## Requests -/

inductive LockFileType where
  | file
  | directory
  | symlink
  | other
  deriving DecidableEq, Repr

structure LockMetadata where
  fileType : LockFileType
  len : Nat
  dev : Nat
  ino : Nat
  deriving DecidableEq, Repr

/-- `fs4::TryLockError` -/
inductive TryLockError where
  | wouldBlock
  | error
  deriving DecidableEq, Repr

/-- What the wait asks for; `openFile` is the lock's file, that all of the
rest is done with. Times are in nanoseconds. -/
inductive LockRequest where
  | symlinkMetadata (path : String)
  | createDirectory (path : String) (mode : Nat)
  | setPermissions (path : String) (mode : Nat)
  | openFile (path : String) (mode : Nat)
  | metadata
  | setFilePermissions (mode : Nat)
  | now
  | tryLock
  | sleep (duration : Nat)
  deriving DecidableEq

def LockAnswer : LockRequest → Type
  | .symlinkMetadata _ | .metadata => Except Unit LockMetadata
  | .createDirectory _ _ | .setPermissions _ _ | .openFile _ _ | .setFilePermissions _ => Except Unit Unit
  | .now => Nat
  | .tryLock => Except TryLockError Unit
  | .sleep _ => Unit

abbrev LockCall (α : Type) := Interact.Call LockRequest LockAnswer LockError α

abbrev perform (r : LockRequest) : LockCall (LockAnswer r) := Interact.ask r

/-- Make a request of the file system, whose failure has no other meaning. -/
def available {α : Type} (x : Except Unit α) : LockCall α := exit (x.mapError fun _ => .unavailable)

structure FileRefreshLock where
  privateRoot : String
  lockPath : String
  /-- `lock_path.parent()` -/
  lockDirectory : Option String
  waitTimeout : Nat
  pollInterval : Nat

/-! ## Getting hold of the file -/

/-- The directory is there, or is created. -/
def ensureDirectory (path : String) : LockCall Unit := do
  match ← perform (.symlinkMetadata path) with
  | .ok metadata => exit (rejectIf (metadata.fileType != .directory) .unavailable)
  | .error _ => available (← perform (.createDirectory path 0o700))

def preparePrivateDirectory (path : String) : LockCall Unit := do
  ensureDirectory path
  available (← perform (.setPermissions path 0o700))

/-- A file that is there already has to be a regular one with nothing in it. -/
def checkLockFile (path : String) : LockCall Unit := do
  match ← perform (.symlinkMetadata path) with
  | .ok metadata => exit (rejectIf (metadata.fileType != .file || metadata.len != 0) .unavailable)
  | .error _ => return ()

def openLockFile (path : String) : LockCall Unit := do
  checkLockFile path
  available (← perform (.openFile path 0o600))
  let fileMetadata ← available (← perform .metadata)
  let pathMetadata ← available (← perform (.symlinkMetadata path))
  exit (rejectIf (fileMetadata.fileType != .file || pathMetadata.fileType != .file || fileMetadata.len != 0 ||
    pathMetadata.len != 0) .unavailable)
  exit (rejectIf (fileMetadata.dev != pathMetadata.dev || fileMetadata.ino != pathMetadata.ino) .unavailable)
  available (← perform (.setFilePermissions 0o600))

def openLock (l : FileRefreshLock) : LockCall Unit := do
  preparePrivateDirectory l.privateRoot
  let lockDirectory ← exit (okOr l.lockDirectory .unavailable)
  preparePrivateDirectory lockDirectory
  openLockFile l.lockPath

/-! ## Waiting -/

/-- At most as many attempts as there is fuel for; none when it runs out. -/
def acquireLoop (l : FileRefreshLock) (started : Nat) : Nat → LockCall (Option Unit)
  | 0 => return none
  | fuel + 1 => do
    match ← perform .tryLock with
    | .ok _ => return some ()
    | .error .wouldBlock =>
      let now : Nat ← perform .now
      if l.waitTimeout ≤ now - started then exit (.error .busy)
      else
        let _ ← perform (.sleep l.pollInterval)
        acquireLoop l started fuel
    | .error .error => exit (.error .unavailable)

def acquire (l : FileRefreshLock) (fuel : Nat) : LockCall (Option Unit) := do
  openLock l
  let started ← perform .now
  acquireLoop l started fuel

/-! ## What happens before the wait -/

/-- A request that is not of the wait. -/
def LockRequest.Opens : LockRequest → Prop
  | .now | .tryLock | .sleep _ => False
  | _ => True

/-- A program that only opens the lock's file, and fails only as unavailable. -/
def Opening {α : Type} (p : LockCall α) : Prop :=
  p.run.Asks LockRequest.Opens fun x => ∀ e, x = .error e → e = .unavailable

section
variable {α β : Type}

theorem opening_exit {x : Except LockError α} (hx : ∀ e, x = .error e → e = .unavailable) : Opening (exit x) := hx

theorem opening_perform_bind {r : LockRequest} {f : LockAnswer r → LockCall α} (hr : r.Opens) (hf : ∀ a, Opening (f a)) :
    Opening (perform r >>= f) := ⟨hr, hf⟩

theorem opening_bind {p : LockCall β} {f : β → LockCall α} (hp : Opening p) (hf : ∀ b, Opening (f b)) :
    Opening (p >>= f) := by
  refine Program.Asks.bind hp fun x hx => ?_
  cases x with
  | error e =>
    intro e' he'
    cases he'
    exact hx e rfl
  | ok b => exact hf b

theorem opening_available (x : Except Unit α) : Opening (available x) := by
  refine opening_exit fun e he => ?_
  cases x with
  | ok a => cases he
  | error u =>
    cases he
    rfl

theorem opening_reject (c : Bool) : Opening (exit (rejectIf c .unavailable) : LockCall Unit) :=
  opening_exit fun _ he => (rejectIf_error_iff.mp he).2.symm

end

theorem preparePrivateDirectory_opening (path : String) : Opening (preparePrivateDirectory path) := by
  refine opening_bind (opening_perform_bind trivial fun metadata => ?_) fun _ => ?_
  · cases metadata with
    | ok metadata => exact opening_reject _
    | error _ => exact opening_perform_bind trivial fun a => opening_available a
  · exact opening_perform_bind trivial fun a => opening_available a

theorem openLockFile_opening (path : String) : Opening (openLockFile path) := by
  have hcheck : Opening (checkLockFile path) := by
    refine opening_perform_bind trivial fun metadata => ?_
    cases metadata with
    | ok metadata => exact opening_reject _
    | error _ => exact opening_exit fun e he => by cases he
  refine opening_bind hcheck fun _ => opening_perform_bind trivial fun a => ?_
  refine opening_bind (opening_available a) fun _ => opening_perform_bind trivial fun a => ?_
  refine opening_bind (opening_available a) fun _ => opening_perform_bind trivial fun a => ?_
  refine opening_bind (opening_available a) fun _ => opening_bind (opening_reject _) fun _ => ?_
  exact opening_bind (opening_reject _) fun _ => opening_perform_bind trivial fun a => opening_available a

theorem openLock_opening (l : FileRefreshLock) : Opening (openLock l) := by
  refine opening_bind (preparePrivateDirectory_opening l.privateRoot) fun _ => ?_
  refine opening_bind (opening_exit fun e he => (okOr_error_iff.mp he).2.symm) fun lockDirectory => ?_
  exact opening_bind (preparePrivateDirectory_opening lockDirectory) fun _ => openLockFile_opening l.lockPath

/-! ## What the wait does -/

abbrev LockTrace := List (Event LockAnswer)
abbrev LockProgram := Program LockRequest LockAnswer (Except LockError (Option Unit))

def held : Event LockAnswer := ⟨.tryLock, .error .wouldBlock⟩

section
variable (l : FileRefreshLock) (started : Nat)

/-- An attempt that found the lock held, a reading and a sleep. -/
def round (t : Nat) : LockTrace := [held, ⟨.now, t⟩, ⟨.sleep l.pollInterval, ()⟩]

/-- What a wait has done since its last sleep, and what it has become. -/
inductive Ending : LockTrace → LockProgram → Prop
  | before {r k} : Ending [] (.ask r k)
  | spent : Ending [] (.ret (.ok none))
  | free : Ending [⟨.tryLock, .ok ()⟩] (.ret (.ok (some ())))
  | failed : Ending [⟨.tryLock, .error .error⟩] (.ret (.error .unavailable))
  | held {r k} : Ending [held] (.ask r k)
  | read {t r k} : t - started < l.waitTimeout → Ending [Auth.held, ⟨.now, t⟩] (.ask r k)
  | passed {t} : l.waitTimeout ≤ t - started → Ending [Auth.held, ⟨.now, t⟩] (.ret (.error .busy))

end

variable {l : FileRefreshLock} {started fuel : Nat} {tr : LockTrace} {q : LockProgram}

/-- A wait is of rounds in which the timeout was not over, and an ending. -/
theorem acquireLoop_shape (hf : (acquireLoop l started fuel).run.Follows tr q) :
    ∃ (ts : List Nat) (tail : LockTrace), tr = ts.flatMap (round l) ++ tail ∧
      (∀ t ∈ ts, t - started < l.waitTimeout) ∧ Ending l started tail q ∧
      (q = .ret (.ok none) → ts.length = fuel) := by
  induction fuel generalizing tr with
  | zero =>
    obtain ⟨rfl, rfl⟩ := follows_of_ret hf
    exact ⟨[], [], rfl, by simp, .spent, fun _ => rfl⟩
  | succ fuel ih =>
    obtain ⟨rfl, k, rfl⟩ | ⟨outcome, tr, rfl, hattempt⟩ := follows_of_ask_bind hf
    · exact ⟨[], [], rfl, by simp, .before, fun h => by cases h⟩
    clear hf
    cases outcome with
    | ok _ =>
      obtain ⟨rfl, rfl⟩ := follows_of_ret hattempt
      exact ⟨[], _, rfl, by simp, .free, fun h => by cases h⟩
    | error e =>
      cases e with
      | error =>
        obtain ⟨rfl, rfl⟩ := follows_of_ret hattempt
        exact ⟨[], _, rfl, by simp, .failed, fun h => by cases h⟩
      | wouldBlock =>
        obtain ⟨rfl, k, rfl⟩ | ⟨(t : Nat), tr, rfl, hread⟩ := follows_of_ask_bind hattempt
        · exact ⟨[], _, rfl, by simp, .held, fun h => by cases h⟩
        by_cases hpassed : l.waitTimeout ≤ t - started
        · rw [if_pos hpassed] at hread
          obtain ⟨rfl, rfl⟩ := follows_of_ret hread
          exact ⟨[], _, rfl, by simp, .passed hpassed, fun h => by cases h⟩
        · rw [if_neg hpassed] at hread
          have hlt : t - started < l.waitTimeout := Nat.lt_of_not_le hpassed
          obtain ⟨rfl, k, rfl⟩ | ⟨u, tr, rfl, hslept⟩ := follows_of_ask_bind hread
          · exact ⟨[], _, rfl, by simp, .read hlt, fun h => by cases h⟩
          obtain ⟨ts, tail, rfl, hts, hending, hspent⟩ := ih hslept
          refine ⟨t :: ts, tail, rfl, List.forall_mem_cons.mpr ⟨hlt, hts⟩, hending, fun h => ?_⟩
          rw [List.length_cons, hspent h]

/-! ## Attempts, readings and sleeps -/

def attempt? : Event LockAnswer → Option (Except TryLockError Unit)
  | ⟨.tryLock, outcome⟩ => some outcome
  | _ => none

def reading? : Event LockAnswer → Option Nat
  | ⟨.now, t⟩ => some t
  | _ => none

def sleep? : Event LockAnswer → Option Nat
  | ⟨.sleep duration, _⟩ => some duration
  | _ => none

def attempts (tr : LockTrace) : List (Except TryLockError Unit) := tr.filterMap attempt?
def readings (tr : LockTrace) : List Nat := tr.filterMap reading?
def sleeps (tr : LockTrace) : List Nat := tr.filterMap sleep?

/-- The readings are a clock's that never goes back and that a sleep carries
on by its duration at least; it is at `time` or later. -/
def Timed : Nat → LockTrace → Prop
  | _, [] => True
  | time, ⟨.now, (t : Nat)⟩ :: tr => time ≤ t ∧ Timed t tr
  | time, ⟨.sleep duration, _⟩ :: tr => Timed (time + duration) tr
  | time, _ :: tr => Timed time tr

theorem attempts_rounds (ts : List Nat) (tail : LockTrace) :
    attempts (ts.flatMap (round l) ++ tail) = List.replicate ts.length (.error .wouldBlock) ++ attempts tail := by
  induction ts with
  | nil => rfl
  | cons t ts ih => exact congrArg (List.cons _) ih

theorem readings_rounds (ts : List Nat) (tail : LockTrace) :
    readings (ts.flatMap (round l) ++ tail) = ts ++ readings tail := by
  induction ts with
  | nil => rfl
  | cons t ts ih => exact congrArg (List.cons t) ih

theorem sleeps_rounds (ts : List Nat) (tail : LockTrace) :
    sleeps (ts.flatMap (round l) ++ tail) = List.replicate ts.length l.pollInterval ++ sleeps tail := by
  induction ts with
  | nil => rfl
  | cons t ts ih => exact congrArg (List.cons _) ih

/-- Nothing of the wait is in what opens the file. -/
theorem opening_nothing {opened : LockTrace} (h : ∀ e ∈ opened, e.1.Opens) (tr : LockTrace) :
    attempts (opened ++ tr) = attempts tr ∧ readings (opened ++ tr) = readings tr ∧ sleeps (opened ++ tr) = sleeps tr ∧
      ∀ time, Timed time (opened ++ tr) ↔ Timed time tr := by
  induction opened with
  | nil => exact ⟨rfl, rfl, rfl, fun _ => Iff.rfl⟩
  | cons e opened ih =>
    obtain ⟨he, hopened⟩ := List.forall_mem_cons.mp h
    obtain ⟨r, a⟩ := e
    cases r with
    | now | tryLock | sleep _ => exact he.elim
    | _ => exact ih hopened

/-- After rounds the clock is as far on as they slept, and past each of their readings. -/
theorem timed_rounds {ts : List Nat} {tail : LockTrace} {time : Nat} (h : Timed time (ts.flatMap (round l) ++ tail)) :
    (∀ t ∈ ts, time ≤ t) ∧ ∃ time', time ≤ time' ∧ Timed time' tail := by
  induction ts generalizing time with
  | nil => exact ⟨by simp, time, Nat.le_refl _, h⟩
  | cons t ts ih =>
    obtain ⟨htime, hrest⟩ : time ≤ t ∧ Timed (t + l.pollInterval) (ts.flatMap (round l) ++ tail) := h
    obtain ⟨hts, time', hle, htail⟩ := ih hrest
    refine ⟨List.forall_mem_cons.mpr ⟨htime, fun t' ht' => ?_⟩, time', by omega, htail⟩
    have ht' := hts t' ht'
    omega

/-- **There are no more rounds than sleeps fit** in what is left of the timeout. -/
theorem rounds_le {ts : List Nat} {tail : LockTrace} {time n : Nat} (h : Timed time (ts.flatMap (round l) ++ tail))
    (hts : ∀ t ∈ ts, t - started < l.waitTimeout) (hstarted : started ≤ time)
    (hleft : started + l.waitTimeout ≤ time + n * l.pollInterval) : ts.length ≤ n := by
  induction ts generalizing time n with
  | nil => exact Nat.zero_le n
  | cons t ts ih =>
    obtain ⟨htime, hrest⟩ : time ≤ t ∧ Timed (t + l.pollInterval) (ts.flatMap (round l) ++ tail) := h
    obtain ⟨hlt, hts⟩ := List.forall_mem_cons.mp hts
    cases n with
    | zero => omega
    | succ n =>
      have hleft : started + l.waitTimeout ≤ t + l.pollInterval + n * l.pollInterval := by
        rw [Nat.succ_mul] at hleft
        omega
      have hlen := ih hrest hts (by omega) hleft
      rw [List.length_cons]
      omega

/-! ## The bound -/

/-- At any point of a wait, and at its end: how often it has tried and slept,
what it returns for which attempts, and that it has slept only while its
timeout was not known to be over. -/
structure Waited (l : FileRefreshLock) (tr : LockTrace) (q : LockProgram) : Prop where
  attempts : (attempts tr).length ≤ l.waitTimeout ⌈/⌉ l.pollInterval + 1
  sleeps : (sleeps tr).length ≤ l.waitTimeout ⌈/⌉ l.pollInterval
  ends : q ≠ .ret (.ok none)
  acquired : ∀ x, q = .ret x →
    (x = .ok (some ()) ↔ (Auth.attempts tr).find? (· ≠ .error .wouldBlock) = some (.ok ()))
  busy : q = .ret (.error .busy) → (∀ outcome ∈ Auth.attempts tr, outcome = .error .wouldBlock) ∧
    ∃ before started t, tr = before ++ [⟨.now, t⟩] ∧ (readings before).head? = some started ∧ started + l.waitTimeout ≤ t
  awake : ∀ before duration after started t, tr = before ++ ⟨.sleep duration, ()⟩ :: after →
    (readings before).head? = some started → t ∈ readings before → t - started < l.waitTimeout

/-- A wait that does not get to its first attempt. -/
theorem waited_opening (hopened : ∀ e ∈ tr, e.1.Opens) (hq : ∀ x, q = .ret x → x = .error .unavailable) : Waited l tr q := by
  have hnothing := opening_nothing hopened []
  rw [List.append_nil] at hnothing
  obtain ⟨hattempts, -, hsleeps, -⟩ := hnothing
  refine ⟨by rw [hattempts]; exact Nat.zero_le _, by rw [hsleeps]; exact Nat.zero_le _, ?_, ?_, ?_, ?_⟩
  · intro h
    cases hq _ h
  · intro x hx
    obtain rfl := hq x hx
    rw [hattempts]
    constructor
    · intro h
      cases h
    · intro h
      cases h
  · intro h
    cases hq _ h
  · intro before duration after started t heq
    exact absurd (hopened ⟨.sleep duration, ()⟩ (by simp [heq])) id

theorem Ending.sleeps_eq {tail : LockTrace} (h : Ending l started tail q) : Auth.sleeps tail = [] := by
  cases h <;> rfl

theorem Ending.attempts_le {tail : LockTrace} (h : Ending l started tail q) : (Auth.attempts tail).length ≤ 1 := by
  cases h <;> simp [Auth.attempts, attempt?, Auth.held]

/-- What a wait returns is the answer to the attempt its ending has. -/
theorem Ending.acquired_iff {tail : LockTrace} {x : Except LockError (Option Unit)} (h : Ending l started tail (.ret x)) :
    x = .ok (some ()) ↔ (Auth.attempts tail).find? (· ≠ .error .wouldBlock) = some (.ok ()) := by
  cases h <;> simp [Auth.attempts, attempt?, Auth.held]

theorem Ending.busy {tail : LockTrace} (h : Ending l started tail (.ret (.error .busy))) :
    ∃ t : Nat, tail = [Auth.held, ⟨.now, t⟩] ∧ l.waitTimeout ≤ t - started := by
  cases h with
  | passed hpassed => exact ⟨_, rfl, hpassed⟩

theorem mem_sleeps {duration : Nat} (h : ⟨.sleep duration, ()⟩ ∈ tr) : duration ∈ sleeps tr :=
  List.mem_filterMap.mpr ⟨_, h, rfl⟩

theorem readings_head {opened : LockTrace} (hopened : ∀ e ∈ opened, e.1.Opens) (tr : LockTrace) :
    (readings (opened ++ ⟨.now, started⟩ :: tr)).head? = some started := by
  rw [(opening_nothing hopened _).2.1]
  rfl

/-- A sleep comes before what has none. -/
theorem sleep_in_front {front tail before after : LockTrace} {duration : Nat} (htail : sleeps tail = [])
    (heq : front ++ tail = before ++ ⟨.sleep duration, ()⟩ :: after) :
    ∃ rest, front = before ++ ⟨.sleep duration, ()⟩ :: rest := by
  have hno : ⟨.sleep duration, ()⟩ ∉ tail := by
    intro hmem
    have hslept := mem_sleeps hmem
    rw [htail] at hslept
    cases hslept
  obtain ⟨rest, -, hlate⟩ | ⟨rest, hbefore, hrest⟩ := List.append_eq_append_iff.mp heq
  · exact absurd (by rw [hlate]; simp) hno
  · cases rest with
    | nil => exact absurd (by rw [← List.nil_append tail, ← hrest]; exact List.mem_cons_self) hno
    | cons e rest =>
      obtain ⟨rfl, -⟩ := List.cons.inj hrest
      exact ⟨rest, hbefore⟩

/-- Whatever was read before a sleep was read within the timeout. -/
theorem awake_loop {opened tail before after : LockTrace} {ts : List Nat} {duration started' t : Nat}
    (hopened : ∀ e ∈ opened, e.1.Opens) (hts : ∀ t ∈ ts, t - started < l.waitTimeout) (htail : sleeps tail = [])
    (heq : opened ++ ⟨.now, started⟩ :: (ts.flatMap (round l) ++ tail) = before ++ ⟨.sleep duration, ()⟩ :: after)
    (hhead : (readings before).head? = some started') (ht : t ∈ readings before) : t - started' < l.waitTimeout := by
  have hfront : opened ++ ⟨.now, started⟩ :: (ts.flatMap (round l) ++ tail) =
      (opened ++ ⟨.now, started⟩ :: ts.flatMap (round l)) ++ tail := by simp
  obtain ⟨rest, hbefore⟩ := sleep_in_front htail (hfront.symm.trans heq)
  have hnothing := opening_nothing hopened (⟨.now, started⟩ :: ts.flatMap (round l))
  have hrounds := readings_rounds (l := l) ts []
  have hslept := sleeps_rounds (l := l) ts []
  rw [List.append_nil] at hrounds hslept
  have hsplit : started :: ts = readings before ++ readings (⟨.sleep duration, ()⟩ :: rest) := by
    have hreadings := hnothing.2.1.trans (congrArg (List.cons started) (hrounds.trans (List.append_nil ts)))
    rw [hbefore] at hreadings
    exact hreadings.symm.trans List.filterMap_append
  have hmem : t ∈ started :: ts := by
    rw [hsplit]
    exact List.mem_append_left _ ht
  obtain rfl : started = started' := by
    cases hb : readings before with
    | nil =>
      rw [hb] at ht
      cases ht
    | cons first others =>
      rw [hb] at hhead hsplit
      exact (List.cons.inj hsplit).1.trans (Option.some.inj hhead)
  obtain rfl | ht := List.mem_cons.mp hmem
  · -- there was a round, so the timeout is not nothing
    have hsleeps := hnothing.2.2.1.trans (hslept.trans (List.append_nil _))
    have hmem : duration ∈ List.replicate ts.length l.pollInterval := by
      rw [← hsleeps, hbefore]
      exact mem_sleeps (by simp)
    obtain ⟨first, hfirst⟩ := List.exists_mem_of_length_pos (Nat.pos_of_ne_zero (List.mem_replicate.mp hmem).1)
    have hlt := hts first hfirst
    omega
  · exact hts t ht

/-- A wait that began at `started`, after what opened the file. -/
theorem waited_loop (hpoll : 0 < l.pollInterval) (hfuel : l.waitTimeout ⌈/⌉ l.pollInterval < fuel)
    {opened : LockTrace} (hopened : ∀ e ∈ opened, e.1.Opens) (hf : (acquireLoop l started fuel).run.Follows tr q)
    (htimed : Timed started tr) : Waited l (opened ++ ⟨.now, started⟩ :: tr) q := by
  obtain ⟨ts, tail, rfl, hts, hending, hspent⟩ := acquireLoop_shape hf
  obtain ⟨hattempts, hreadings, hsleeps, -⟩ := opening_nothing hopened (⟨.now, started⟩ :: (ts.flatMap (round l) ++ tail))
  have hrounds : ts.length ≤ l.waitTimeout ⌈/⌉ l.pollInterval := by
    refine rounds_le htimed hts (Nat.le_refl _) (Nat.add_le_add_left ?_ _)
    have hceil := le_smul_ceilDiv (b := l.waitTimeout) hpoll
    rwa [smul_eq_mul, Nat.mul_comm] at hceil
  have hattempts : attempts (opened ++ ⟨.now, started⟩ :: (ts.flatMap (round l) ++ tail)) =
      List.replicate ts.length (.error .wouldBlock) ++ attempts tail := hattempts.trans (attempts_rounds ts tail)
  have hsleeps : sleeps (opened ++ ⟨.now, started⟩ :: (ts.flatMap (round l) ++ tail)) =
      List.replicate ts.length l.pollInterval ++ sleeps tail := hsleeps.trans (sleeps_rounds ts tail)
  refine ⟨?_, ?_, ?_, ?_, ?_, ?_⟩
  · have htail := hending.attempts_le
    rw [hattempts, List.length_append, List.length_replicate]
    omega
  · rw [hsleeps, hending.sleeps_eq, List.append_nil, List.length_replicate]
    exact hrounds
  · intro h
    have hlen := hspent h
    omega
  · intro x hx
    subst hx
    rw [hattempts, List.find?_append, hending.acquired_iff]
    simp
  · intro h
    subst h
    obtain ⟨t, rfl, hpassed⟩ := hending.busy
    obtain ⟨-, time', htime', hlast⟩ := timed_rounds htimed
    have hlast : time' ≤ t := hlast.1
    constructor
    · intro outcome hmem
      rw [hattempts, List.mem_append] at hmem
      obtain hmem | hmem := hmem
      · exact List.eq_of_mem_replicate hmem
      · exact List.mem_singleton.mp hmem
    · exact ⟨opened ++ ⟨.now, started⟩ :: (ts.flatMap (round l) ++ [held]), started, t, by simp, readings_head hopened _,
        by omega⟩
  · intro before duration after started' t heq hhead ht
    exact awake_loop hopened hts hending.sleeps_eq heq hhead ht

/-- More fuel changes nothing of a wait that is over. -/
theorem acquireLoop_fuel {x : Except LockError (Option Unit)} (hx : x ≠ .ok none) {more : Nat} (hmore : fuel ≤ more)
    (hf : (acquireLoop l started fuel).run.Follows tr (.ret x)) : (acquireLoop l started more).run.Follows tr (.ret x) := by
  induction fuel generalizing more tr with
  | zero =>
    obtain ⟨-, h⟩ := follows_of_ret hf
    cases h
    exact absurd rfl hx
  | succ fuel ih =>
    obtain ⟨more, rfl⟩ : ∃ m, more = m + 1 := ⟨more - 1, by omega⟩
    obtain ⟨-, k, h⟩ | ⟨outcome, tr, rfl, hattempt⟩ := follows_of_ask_bind hf
    · cases h
    refine follows_ask_bind ?_
    clear hf
    cases outcome with
    | ok _ => exact hattempt
    | error e =>
      cases e with
      | error => exact hattempt
      | wouldBlock =>
        obtain ⟨-, k, h⟩ | ⟨(t : Nat), tr, rfl, hread⟩ := follows_of_ask_bind hattempt
        · cases h
        refine follows_ask_bind ?_
        by_cases hpassed : l.waitTimeout ≤ t - started
        · rw [if_pos hpassed] at hread ⊢
          exact hread
        · rw [if_neg hpassed] at hread ⊢
          obtain ⟨-, k, h⟩ | ⟨u, tr, rfl, hslept⟩ := follows_of_ask_bind hread
          · cases h
          exact follows_ask_bind (ih (Nat.le_of_succ_le_succ hmore) hslept)

/-- **The wait for the lock is bounded, and exact at its deadline.** Fuel for
one attempt more than there can be sleeps is enough. -/
theorem acquire_bounded (hpoll : 0 < l.pollInterval) (hfuel : l.waitTimeout ⌈/⌉ l.pollInterval < fuel)
    (hf : (acquire l fuel).run.Follows tr q) (htimed : Timed 0 tr) :
    Waited l tr q ∧ ∀ x, q = .ret x → ∀ more, fuel ≤ more → (acquire l more).run.Follows tr (.ret x) := by
  have hopening := openLock_opening l
  obtain ⟨r, k, hopen, rfl⟩ | ⟨opened, tr, x, rfl, hopen, hwait⟩ := Program.Follows.of_bind hf
  · obtain ⟨hopened, -⟩ := hopening.follows hopen
    exact ⟨waited_opening hopened fun x h => (by cases h), fun x h => (by cases h)⟩
  obtain ⟨hopened, hx⟩ := hopening.follows hopen
  cases x with
  | error e =>
    obtain ⟨rfl, rfl⟩ := follows_of_ret hwait
    rw [List.append_nil]
    refine ⟨waited_opening hopened ?_, ?_⟩
    · intro x h
      cases h
      rw [hx e rfl]
    · intro x h more _
      cases h
      have hfailed : (acquire l more).run.Follows (opened ++ []) (.ret (.error e)) := Program.Follows.bind hopen .nil
      rwa [List.append_nil] at hfailed
  | ok _ =>
    obtain ⟨rfl, k, rfl⟩ | ⟨(started : Nat), tr, rfl, hloop⟩ := follows_of_ask_bind hwait
    · rw [List.append_nil]
      exact ⟨waited_opening hopened fun x h => (by cases h), fun x h => (by cases h)⟩
    have htimed : 0 ≤ started ∧ Timed started tr := ((opening_nothing hopened _).2.2.2 0).mp htimed
    have hwaited := waited_loop hpoll hfuel hopened hloop htimed.2
    refine ⟨hwaited, ?_⟩
    intro x h more hmore
    subst h
    have hne : x ≠ .ok none := fun heq => hwaited.ends (by rw [heq])
    exact Program.Follows.bind hopen (follows_ask_bind (acquireLoop_fuel hne hmore hloop))

/-! ## A wait that is over in its second round -/

def sampleLock : FileRefreshLock where
  privateRoot := "/data"
  lockPath := "/data/locks/openai-codex-refresh.lock"
  lockDirectory := some "/data/locks"
  waitTimeout := 3
  pollInterval := 2

def sampleDirectory : LockMetadata where
  fileType := .directory
  len := 64
  dev := 1
  ino := 2

def sampleLockFile : LockMetadata where
  fileType := .file
  len := 0
  dev := 1
  ino := 3

def sampleWait : LockTrace :=
  [⟨.symlinkMetadata "/data", .ok sampleDirectory⟩, ⟨.setPermissions "/data" 0o700, .ok ()⟩,
    ⟨.symlinkMetadata "/data/locks", .error ()⟩, ⟨.createDirectory "/data/locks" 0o700, .ok ()⟩,
    ⟨.setPermissions "/data/locks" 0o700, .ok ()⟩, ⟨.symlinkMetadata sampleLock.lockPath, .error ()⟩,
    ⟨.openFile sampleLock.lockPath 0o600, .ok ()⟩, ⟨.metadata, .ok sampleLockFile⟩,
    ⟨.symlinkMetadata sampleLock.lockPath, .ok sampleLockFile⟩, ⟨.setFilePermissions 0o600, .ok ()⟩, ⟨.now, (10 : Nat)⟩,
    held, ⟨.now, (11 : Nat)⟩, ⟨.sleep 2, ()⟩, held, ⟨.now, (13 : Nat)⟩]

theorem sampleWait_follows : (acquire sampleLock 3).run.Follows sampleWait (.ret (.error .busy)) := by
  unfold sampleWait
  repeat refine Program.Follows.cons ?_
  exact .nil

theorem acquire_bounded_sample : Waited sampleLock sampleWait (.ret (.error .busy)) := by
  have hceil : sampleLock.waitTimeout ⌈/⌉ sampleLock.pollInterval < 3 := by decide
  have htimed : Timed 0 sampleWait := by simp [sampleWait, Timed, held]
  exact (acquire_bounded (by decide) hceil sampleWait_follows htimed).1

end AgentHarness.Auth
