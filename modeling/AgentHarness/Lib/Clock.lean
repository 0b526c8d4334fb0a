/-
Computations that read a clock as they go. What a clock reads is arbitrary;
`ComesTo` is what a computation comes to whatever was read before, and so
all there is to say of one whose deadlines never pass. `Ensures` is what is
so of whatever a computation returns, if it does.
-/
import AgentHarness.Lib.Except

namespace Clock

open Except

universe u

variable {ε : Type u} {α β : Type}

/-- A computation that may fail, by the number of readings so far. -/
abbrev Clocked (ε : Type u) (α : Type) := StateT Nat (Except ε) α

/-- Read the clock, and fail with `e` once the budget has passed. -/
def deadline (clock : Nat → Nat) (budget : Nat) (e : ε) : Clocked ε Unit := fun n =>
  (rejectIf (decide (budget ≤ clock n)) e).map (·, n + 1)

/-- Run a computation from the clock's first reading. -/
def begun (x : Clocked ε α) : Except ε α := (x.run 0).map Prod.fst

/-- `x` is `y`, whatever was read before it. -/
def ComesTo (x : Clocked ε α) (y : Except ε α) : Prop := ∀ n, ∃ n', x.run n = y.map (·, n')

/-- Whatever is returned has the property. -/
def Ensures (P : α → Prop) (x : Clocked ε α) : Prop := ∀ n a n', x.run n = .ok (a, n') → P a

section
variable {x : Clocked ε α} {y : Except ε α} {f : α → Clocked ε β} {g : α → Except ε β}

theorem ComesTo.begun (h : ComesTo x y) : begun x = y := by
  obtain ⟨n', hn'⟩ := h 0
  unfold Clock.begun
  rw [hn']
  cases y <;> rfl

theorem comesTo_pure (a : α) : ComesTo (pure a : Clocked ε α) (.ok a) := fun n => ⟨n, rfl⟩

theorem comesTo_throw (e : ε) : ComesTo (throw e : Clocked ε α) (.error e) := fun n => ⟨n, rfl⟩

theorem comesTo_lift (y : Except ε α) : ComesTo (liftM y : Clocked ε α) y := fun n => ⟨n, by cases y <;> rfl⟩

theorem ComesTo.bind (hx : ComesTo x y) (hf : ∀ a, y = .ok a → ComesTo (f a) (g a)) :
    ComesTo (x >>= f) (y >>= g) := by
  intro n
  obtain ⟨n', hn'⟩ := hx n
  cases y with
  | error e => exact ⟨n', by rw [StateT.run_bind, hn']; rfl⟩
  | ok a =>
    obtain ⟨n'', hn''⟩ := hf a rfl n'
    exact ⟨n'', by rw [StateT.run_bind, hn']; exact hn''⟩

theorem comesTo_lift_bind (y : Except ε α) (hf : ∀ a, y = .ok a → ComesTo (f a) (g a)) :
    ComesTo (liftM y >>= f) (y >>= g) := (comesTo_lift y).bind hf

theorem comesTo_ok_bind {y : Except ε β} {x : Except ε α} {a : α} (hx : x = .ok a) (hf : ComesTo (f a) y) :
    ComesTo (liftM x >>= f) y := by
  subst hx
  exact (comesTo_lift (.ok a)).bind (g := fun _ => y) fun a' ha' => by
    cases ha'
    exact hf

/-- **A deadline that has not passed** does nothing. -/
theorem comesTo_deadline_bind {clock : Nat → Nat} {budget : Nat} (h : ∀ n, clock n < budget) {e : ε}
    {f : Unit → Clocked ε α} (hf : ComesTo (f ⟨⟩) y) : ComesTo (deadline clock budget e >>= f) y := by
  intro n
  obtain ⟨n', hn'⟩ := hf (n + 1)
  have hn : decide (budget ≤ clock n) = false := decide_eq_false (Nat.not_le.mpr (h n))
  refine ⟨n', ?_⟩
  rw [StateT.run_bind, ← hn']
  simp only [deadline, StateT.run, hn]
  rfl

/-- A deadline that has not passed at one reading takes that reading. -/
theorem run_deadline_bind {clock : Nat → Nat} {budget n : Nat} (h : clock n < budget) (e : ε) (f : Unit → Clocked ε α) :
    (deadline clock budget e >>= f).run n = (f ⟨⟩).run (n + 1) := by
  have hn : decide (budget ≤ clock n) = false := decide_eq_false (Nat.not_le.mpr h)
  rw [StateT.run_bind]
  simp only [deadline, StateT.run, hn]
  rfl

theorem run_lift_ok_bind {f : α → Clocked ε β} {y : Except ε α} {a : α} (h : y = .ok a) (n : Nat) :
    (liftM y >>= f).run n = (f a).run n := by
  subst h
  rfl

variable {P : α → Prop} {Q : β → Prop}

theorem Ensures.begun (h : Ensures P x) {a : α} (ha : begun x = .ok a) : P a := by
  unfold Clock.begun at ha
  cases hx : x.run 0 with
  | error e =>
    rw [hx] at ha
    cases ha
  | ok r =>
    rw [hx] at ha
    cases ha
    exact h 0 r.1 r.2 hx

theorem ensures_pure {a : α} (h : P a) : Ensures P (pure a : Clocked ε α) := by
  intro n a' n' hrun
  cases hrun
  exact h

theorem ensures_throw (e : ε) : Ensures P (throw e : Clocked ε α) := by
  intro n a n' hrun
  cases hrun

theorem ensures_lift (y : Except ε α) (h : ∀ a, y = .ok a → P a) : Ensures P (liftM y : Clocked ε α) := by
  intro n a n' hrun
  cases y with
  | error e => cases hrun
  | ok a' =>
    cases hrun
    exact h a rfl

theorem Ensures.mono {R : α → Prop} (hx : Ensures P x) (h : ∀ a, P a → R a) : Ensures R x := by
  intro n a n' hrun
  exact h a (hx n a n' hrun)

theorem Ensures.bind (hx : Ensures P x) (hf : ∀ a, P a → Ensures Q (f a)) : Ensures Q (x >>= f) := by
  intro n b n' hrun
  rw [StateT.run_bind] at hrun
  obtain ⟨⟨a, m⟩, ha, hb⟩ := bind_ok_iff.mp hrun
  exact hf a (hx n a m ha) m b n' hb

theorem ensures_lift_bind {f : α → Clocked ε β} (y : Except ε α) (hf : ∀ a, y = .ok a → Ensures Q (f a)) :
    Ensures Q (liftM y >>= f) := (ensures_lift y (P := fun a => y = .ok a) fun _ h => h).bind hf

/-- What a deadline lets pass is as if it were not there. -/
theorem ensures_deadline_bind {clock : Nat → Nat} {budget : Nat} {e : ε} {f : Unit → Clocked ε β} (hf : Ensures Q (f ⟨⟩)) :
    Ensures Q (deadline clock budget e >>= f) := by
  have hany : Ensures (fun _ => True) (deadline clock budget e) := fun _ _ _ _ => trivial
  exact hany.bind fun _ _ => hf

end

end Clock
