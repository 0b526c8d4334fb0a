/-
Early exits of fallible code, and their inversion: what a computation that
succeeded went through. `UpTo` compares two computations but for one error,
which the first may exit with wherever it likes.
-/
import Mathlib.Logic.Basic

namespace Except

universe u v w

variable {ε : Type u} {α β : Type v}

/-- Exit with `e` when `c` holds. -/
def rejectIf (c : Bool) (e : ε) : Except ε PUnit.{v + 1} := if c then .error e else .ok ⟨⟩

/-- The value, or exit with `e` when there is none. -/
def okOr (x : Option α) (e : ε) : Except ε α :=
  match x with
  | some a => .ok a
  | none => .error e

@[simp] theorem ok_bind (a : α) (f : α → Except ε β) : (.ok a >>= f) = f a := rfl
@[simp] theorem error_bind (e : ε) (f : α → Except ε β) : (.error e >>= f) = .error e := rfl
@[simp] theorem rejectIf_true (e : ε) : rejectIf true e = .error e := rfl
@[simp] theorem rejectIf_false (e : ε) : rejectIf false e = .ok ⟨⟩ := rfl
@[simp] theorem okOr_some (a : α) (e : ε) : okOr (some a) e = .ok a := rfl
@[simp] theorem okOr_none (e : ε) : okOr (none : Option α) e = .error e := rfl

@[simp] theorem bind_ok_iff {x : Except ε α} {f : α → Except ε β} {b : β} :
    (x >>= f) = .ok b ↔ ∃ a, x = .ok a ∧ f a = .ok b := by
  cases x <;> simp [bind, Except.bind]

@[simp] theorem pure_ok_iff {a b : α} : (pure a : Except ε α) = .ok b ↔ a = b := by simp [pure, Except.pure]

@[simp] theorem map_ok_iff {x : Except ε α} {f : α → β} {b : β} : f <$> x = .ok b ↔ ∃ a, x = .ok a ∧ f a = b := by
  cases x <;> simp [Functor.map, Except.map]

@[simp] theorem rejectIf_ok_iff {c : Bool} {e : ε} {a : PUnit.{v + 1}} : rejectIf c e = .ok a ↔ c = false := by
  cases c <;> simp [rejectIf]

@[simp] theorem okOr_ok_iff {x : Option α} {e : ε} {a : α} : okOr x e = .ok a ↔ x = some a := by
  cases x <;> simp [okOr]

theorem bind_error_iff {x : Except ε α} {f : α → Except ε β} {e : ε} :
    (x >>= f) = .error e ↔ x = .error e ∨ ∃ a, x = .ok a ∧ f a = .error e := by
  cases x <;> simp [bind, Except.bind]

theorem rejectIf_error_iff {c : Bool} {e e' : ε} :
    (rejectIf c e : Except ε PUnit.{v + 1}) = .error e' ↔ c = true ∧ e = e' := by
  cases c <;> simp [rejectIf]

theorem okOr_error_iff {x : Option α} {e e' : ε} : okOr x e = .error e' ↔ x = none ∧ e = e' := by
  cases x <;> simp [okOr]

theorem map_error_iff {x : Except ε α} {f : α → β} {e : ε} : f <$> x = .error e ↔ x = .error e := by
  cases x <;> simp [Functor.map, Except.map]

/-- An error that is none of the mapped ones. -/
theorem mapError_ne {ε' : Type w} {x : Except ε α} {f : ε → ε'} {e : ε'} (h : ∀ d, f d ≠ e) : x.mapError f ≠ .error e := by
  cases x with
  | ok a => exact fun heq => by cases heq
  | error d => exact fun heq => h d (Except.error.inj heq)

theorem of_mapError_ok {ε' : Type w} {x : Except ε α} {f : ε → ε'} {a : α} (h : x.mapError f = .ok a) : x = .ok a := by
  cases x with
  | error e => cases h
  | ok b => exact congrArg Except.ok (Except.ok.inj h)

theorem rejectIf_ne {c : Bool} {e e' : ε} (h : e ≠ e') : (rejectIf c e : Except ε PUnit.{v + 1}) ≠ .error e' :=
  fun heq => h (rejectIf_error_iff.mp heq).2

/-- What every step of a fold keeps is true of its end. -/
theorem foldlM_keeps {f : β → α → Except ε β} {I : β → Prop} (step : ∀ b a b', I b → f b a = .ok b' → I b') {l : List α}
    {b b' : β} (hb : I b) (h : l.foldlM f b = .ok b') : I b' := by
  induction l generalizing b with
  | nil =>
    cases h
    exact hb
  | cons a l ih =>
    rw [List.foldlM_cons] at h
    obtain ⟨b₁, hstep, h⟩ := bind_ok_iff.mp h
    exact ih (step b a b₁ hb hstep) h

/-- A fold exits with an error of one of its steps. -/
theorem foldlM_error {f : β → α → Except ε β} {e : ε} {C : Prop} (step : ∀ b a, f b a = .error e → C) {l : List α} {b : β}
    (h : l.foldlM f b = .error e) : C := by
  induction l generalizing b with
  | nil => cases h
  | cons a l ih =>
    rw [List.foldlM_cons, bind_error_iff] at h
    rcases h with h | ⟨b', -, h⟩
    · exact step b a h
    · exact ih h

/-- `x` is `y`, unless it exits with `e`. -/
def UpTo (e : ε) (x y : Except ε α) : Prop := x = .error e ∨ x = y

theorem UpTo.of_eq {e : ε} {x y : Except ε α} (h : x = y) : UpTo e x y := .inr h

theorem UpTo.eq {e : ε} {x y : Except ε α} (h : UpTo e x y) (hx : x ≠ .error e) : x = y := h.resolve_left hx

theorem UpTo.trans {e : ε} {x y z : Except ε α} (hxy : UpTo e x y) (hyz : UpTo e y z) : UpTo e x z := by
  rcases hxy with rfl | rfl
  · exact .inl rfl
  · exact hyz

theorem UpTo.bind_ok {e : ε} {x : Except ε α} {a : α} {f : α → Except ε β} {y : Except ε β} (h : UpTo e x (.ok a))
    (hf : UpTo e (f a) y) : UpTo e (x >>= f) y := by
  rcases h with rfl | rfl
  · exact .inl rfl
  · exact hf

end Except
