/-
Programs that may exit early with an error, and the rules of symbolic
execution for them: what a request, an early exit and a bind need to keep a
contract, and how a program is followed along given answers.
-/
import AgentHarness.Lib.Program

namespace Interact

universe u

variable {Req : Type} {Ans : Req → Type u} {ε α β : Type u}

/-- A program that may exit early with an `ε`. -/
abbrev Call (Req : Type) (Ans : Req → Type u) (ε α : Type u) := ExceptT ε (Program Req Ans) α

/-- Make one request. -/
def ask (r : Req) : Call Req Ans ε (Ans r) := ExceptT.lift (.request r)

/-- Go on with a result that is already there, or exit with its error. -/
def exit (x : Except ε α) : Call Req Ans ε α := ExceptT.mk (.ret x)

section
variable {C : Contract Req Ans} {Q : List (Event Ans) → Except ε α → Prop} {h : List (Event Ans)}

theorem meets_pure {a : α} : Program.Meets C Q h (pure a : Call Req Ans ε α).run ↔ Q h (.ok a) := Iff.rfl

theorem meets_ask {r : Req} {Q : List (Event Ans) → Except ε (Ans r) → Prop} :
    Program.Meets C Q h (ask r : Call Req Ans ε _).run ↔
      C.guar h r ∧ ∀ a, C.rely h r a → Q (h ++ [⟨r, a⟩]) (.ok a) :=
  Iff.rfl

theorem meets_ask_bind {r : Req} {f : Ans r → Call Req Ans ε α} :
    Program.Meets C Q h (ask r >>= f).run ↔
      C.guar h r ∧ ∀ a, C.rely h r a → Program.Meets C Q (h ++ [⟨r, a⟩]) (f a).run := Iff.rfl

theorem meets_exit {x : Except ε α} : Program.Meets C Q h (exit x : Call Req Ans ε α).run ↔ Q h x := Iff.rfl

theorem meets_exit_bind {x : Except ε β} {f : β → Call Req Ans ε α} :
    Program.Meets C Q h (exit x >>= f).run ↔
      (∀ e, x = .error e → Q h (.error e)) ∧ ∀ a, x = .ok a → Program.Meets C Q h (f a).run := by
  cases x with
  | error e => simp only [Except.error.injEq, forall_eq', reduceCtorEq, false_implies, implies_true, and_true]; rfl
  | ok a => simp only [reduceCtorEq, false_implies, implies_true, Except.ok.injEq, forall_eq', true_and]; rfl

theorem meets_bind {R : List (Event Ans) → Except ε β → Prop} {p : Call Req Ans ε β} {f : β → Call Req Ans ε α}
    (hp : Program.Meets C R h p.run) (herr : ∀ h e, R h (.error e) → Q h (.error e))
    (hok : ∀ h a, R h (.ok a) → Program.Meets C Q h (f a).run) : Program.Meets C Q h (p >>= f).run :=
  Program.Meets.bind hp fun h x hx => by
    cases x with
    | error e => exact herr h e hx
    | ok a => exact hok h a hx

theorem meets_lift_bind {R : List (Event Ans) → β → Prop} {p : Program Req Ans β} {f : β → Call Req Ans ε α}
    (hp : Program.Meets C R h p) (hf : ∀ h a, R h a → Program.Meets C Q h (f a).run) :
    Program.Meets C Q h (ExceptT.lift p >>= f).run := by
  have hb : (ExceptT.lift p >>= f).run = p.bind fun a => (f a).run := Program.bind_assoc ..
  rw [hb]
  exact hp.bind hf

end

section
variable {tr tr' : List (Event Ans)} {q : Program Req Ans (Except ε α)}

theorem follows_ask_bind {r : Req} {a : Ans r} {f : Ans r → Call Req Ans ε α} (h : (f a).run.Follows tr q) :
    (ask r >>= f).run.Follows (⟨r, a⟩ :: tr) q := .cons h

theorem follows_exit_bind {x : Except ε β} {b : β} {f : β → Call Req Ans ε α} (hx : x = .ok b)
    (h : (f b).run.Follows tr q) : (exit x >>= f).run.Follows tr q := by
  subst hx
  exact h

theorem follows_bind {p : Call Req Ans ε β} {b : β} {f : β → Call Req Ans ε α} (hp : p.run.Follows tr (.ret (.ok b)))
    (hf : (f b).run.Follows tr' q) : (p >>= f).run.Follows (tr ++ tr') q := Program.Follows.bind hp hf

end

section
variable {tr : List (Event Ans)} {q : Program Req Ans (Except ε α)}

/-- An execution that begins with a request has not made it, or goes on with its answer. -/
theorem follows_of_ask_bind {r : Req} {f : Ans r → Call Req Ans ε α} (h : (ask r >>= f).run.Follows tr q) :
    (tr = [] ∧ ∃ k, q = .ask r k) ∨ ∃ a tr', tr = ⟨r, a⟩ :: tr' ∧ (f a).run.Follows tr' q := by
  generalize hp : (ask r >>= f).run = p at h
  cases h with
  | nil => exact .inl ⟨rfl, _, hp.symm⟩
  | cons h =>
    cases hp
    exact .inr ⟨_, _, rfl, h⟩

theorem follows_of_ret {x : Except ε α} (h : (Program.ret x : Program Req Ans _).Follows tr q) : tr = [] ∧ q = .ret x := by
  cases h
  exact ⟨rfl, rfl⟩

end

section
variable {P : Req → Prop}

theorem asks_ask_bind {r : Req} {f : Ans r → Call Req Ans ε α} (hr : P r)
    (hf : ∀ a, (f a).run.Asks P fun _ => True) : (ask r >>= f).run.Asks P fun _ => True := ⟨hr, hf⟩

theorem asks_exit_bind {x : Except ε β} {f : β → Call Req Ans ε α} (hf : ∀ a, (f a).run.Asks P fun _ => True) :
    (exit x >>= f).run.Asks P fun _ => True := by
  cases x with
  | error e => trivial
  | ok a => exact hf a

theorem asks_lift_bind {p : Program Req Ans β} {f : β → Call Req Ans ε α} (hp : p.Asks P fun _ => True)
    (hf : ∀ a, (f a).run.Asks P fun _ => True) : (ExceptT.lift p >>= f).run.Asks P fun _ => True := by
  have hb : (ExceptT.lift p >>= f).run = p.bind fun a => (f a).run := Program.bind_assoc ..
  rw [hb]
  exact hp.bind fun a _ => hf a

end

end Interact
