/-
Programs that are run by programs: each request of one is answered by a
program over other requests, with a state kept from one to the next
(`interpret`). `Meets.interpret` is its rule, a relation between the two
histories and the state that every answer keeps. Where each request stands
for itself it is the same program over more requests (`lift`).

A program simulates another when every exchange of its own is one of the
other's or is silent. What is true of all executions of the other is then
true of its executions (`Simulates.follows`).
-/
import AgentHarness.Lib.Call

namespace Interact.Program

variable {Req Req' : Type} {Ans : Req → Type} {Ans' : Req' → Type} {α β σ : Type}

/-! ## The same program over more requests -/

def lift (f : Req → Req') : Program Req (fun r => Ans' (f r)) α → Program Req' Ans' α
  | .ret a => .ret a
  | .ask r k => .ask (f r) fun a => lift f (k a)

section
variable {f : Req → Req'}

@[simp] theorem lift_ret (a : α) : lift f (.ret a : Program Req (fun r => Ans' (f r)) α) = .ret a := rfl

theorem lift_bind (p : Program Req (fun r => Ans' (f r)) α) (g : α → Program Req (fun r => Ans' (f r)) β) :
    lift f (p.bind g) = (lift f p).bind fun a => lift f (g a) := by
  induction p with
  | ret a => rfl
  | ask r k ih => simp only [ask_bind, lift, ih]

variable {C : Contract Req' Ans'} {Q : List (Event Ans') → α → Prop} {h : List (Event Ans')}

theorem meets_lift_request_bind {r : Req} {g : Ans' (f r) → Program Req (fun r => Ans' (f r)) α} :
    Meets C Q h (lift f (request r >>= g)) ↔
      C.guar h (f r) ∧ ∀ a, C.rely h (f r) a → Meets C Q (h ++ [⟨f r, a⟩]) (lift f (g a)) := Iff.rfl

theorem meets_lift_bind {R : List (Event Ans') → β → Prop} {p : Program Req (fun r => Ans' (f r)) β}
    {g : β → Program Req (fun r => Ans' (f r)) α} (hp : Meets C R h (lift f p))
    (hg : ∀ h b, R h b → Meets C Q h (lift f (g b))) : Meets C Q h (lift f (p >>= g)) := by
  rw [bind_eq, lift_bind]
  exact hp.bind hg

end

theorem Follows.lift {p q : Program Req (fun r => Ans' (f r)) α} {tr : List (Event fun r => Ans' (f r))}
    (h : p.Follows tr q) : (Program.lift f p).Follows (tr.map fun e => ⟨f e.1, e.2⟩) (Program.lift f q) := by
  induction h with
  | nil => exact .nil
  | cons _ ih => exact .cons ih

/-- What a program keeps it also keeps as one over more requests, by what a
history has of its own. -/
theorem Meets.lift {f : Req → Req'} {view : Event Ans' → Option (Event fun r => Ans' (f r))}
    (hview : ∀ r a, view ⟨f r, a⟩ = some ⟨r, a⟩) {G : List (Event fun r => Ans' (f r)) → Req → Prop}
    {Q : List (Event fun r => Ans' (f r)) → α → Prop} {C : Contract Req' Ans'} {p : Program Req (fun r => Ans' (f r)) α}
    {J : List (Event Ans') → Prop} {h : List (Event Ans')} (hp : p.Meets (.free G) Q (h.filterMap view)) (hJ : J h)
    (hguar : ∀ h r, J h → G (h.filterMap view) r → C.guar h (f r) ∧ ∀ a, J (h ++ [⟨f r, a⟩])) :
    (Program.lift f p).Meets C (fun h a => J h ∧ Q (h.filterMap view) a) h := by
  induction p generalizing h with
  | ret a => exact ⟨hJ, hp⟩
  | ask r k ih =>
    obtain ⟨hr, hstep⟩ := hguar h r hJ hp.1
    refine ⟨hr, fun a _ => ih a ?_ (hstep a)⟩
    rw [List.filterMap_append, List.filterMap_cons_some (hview r a), List.filterMap_nil]
    exact hp.2 a trivial

/-! ## Interpreters -/

/-- A program for each request, from the state before it. -/
abbrev Handler (Ans : Req → Type) (Ans' : Req' → Type) (σ : Type) := σ → (r : Req) → Program Req' Ans' (σ × Ans r)

def interpret (handle : Handler Ans Ans' σ) : σ → Program Req Ans α → Program Req' Ans' (σ × α)
  | s, .ret a => .ret (s, a)
  | s, .ask r k => (handle s r).bind fun x => interpret handle x.1 (k x.2)

/-- **The rule of an interpreter**: what relates the two histories to the
state is kept by the answer to each request that the program may make. -/
theorem Meets.interpret {handle : Handler Ans Ans' σ} {C : Contract Req Ans} {C' : Contract Req' Ans'}
    {Q : List (Event Ans) → α → Prop} {I : List (Event Ans) → List (Event Ans') → σ → Prop}
    (hhandle : ∀ h h' s r, I h h' s → C.guar h r →
      (handle s r).Meets C' (fun h'' x => C.rely h r x.2 ∧ I (h ++ [⟨r, x.2⟩]) h'' x.1) h')
    {p : Program Req Ans α} {h : List (Event Ans)} {h' : List (Event Ans')} {s : σ} (hp : p.Meets C Q h) (hI : I h h' s) :
    (interpret handle s p).Meets C' (fun h'' x => ∃ h, I h h'' x.1 ∧ Q h x.2) h' := by
  induction p generalizing h h' s with
  | ret a => exact ⟨h, hI, hp⟩
  | ask r k ih => exact (hhandle h h' s r hI hp.1).bind fun h'' x hx => ih x.2 (hp.2 x.2 hx.1) hx.2

/-- The requests of an interpreted program are those of the answers. -/
theorem Asks.interpret {handle : Handler Ans Ans' σ} {P : Req' → Prop} (hhandle : ∀ s r, (handle s r).Asks P fun _ => True)
    (p : Program Req Ans α) (s : σ) : (interpret handle s p).Asks P fun _ => True := by
  induction p generalizing s with
  | ret a => trivial
  | ask r k ih => exact (hhandle s r).bind fun x _ => ih x.2 x.1

/-- Each exchange of one history is an answer's execution in the other. -/
inductive Realizes (handle : Handler Ans Ans' σ) : σ → List (Event Ans) → List (Event Ans') → σ → Prop
  | nil {s} : Realizes handle s [] [] s
  | cons {s r a t h tr tr' s'} : (handle s r).Follows h (.ret (t, a)) → Realizes handle t tr tr' s' →
      Realizes handle s (⟨r, a⟩ :: tr) (h ++ tr') s'

theorem Follows.interpret {handle : Handler Ans Ans' σ} {p q : Program Req Ans α} {tr : List (Event Ans)}
    {tr' : List (Event Ans')} {s s' : σ} (hf : p.Follows tr q) (hr : Realizes handle s tr tr' s') :
    (interpret handle s p).Follows tr' (interpret handle s' q) := by
  induction hr generalizing p with
  | nil =>
    obtain rfl := hf.eq_of_nil
    exact .nil
  | cons h _ ih =>
    cases hf with
    | cons hf => exact h.bind (ih hf)

/-! ## Simulation -/

/-- Every exchange of the first program is one of the second, as `erase` has
it, or silent. -/
inductive Simulates (erase : Event Ans → Option (Event Ans')) : Program Req Ans α → Program Req' Ans' α → Prop
  | ret (a : α) : Simulates erase (.ret a) (.ret a)
  | silent {r k q} : (∀ a, erase ⟨r, a⟩ = none) → (∀ a, Simulates erase (k a) q) → Simulates erase (.ask r k) q
  | visible {r k r' k'} (g : Ans r → Ans' r') : (∀ a, erase ⟨r, a⟩ = some ⟨r', g a⟩) →
      (∀ a, Simulates erase (k a) (k' (g a))) → Simulates erase (.ask r k) (.ask r' k')

theorem Simulates.follows {erase : Event Ans → Option (Event Ans')} {p q : Program Req Ans α} {p' : Program Req' Ans' α}
    {tr : List (Event Ans)} (h : Simulates erase p p') (hf : p.Follows tr q) :
    ∃ q', p'.Follows (tr.filterMap erase) q' ∧ Simulates erase q q' := by
  induction hf generalizing p' with
  | nil => exact ⟨p', .nil, h⟩
  | @cons r k a tr q _ ih =>
    cases h with
    | silent hnone hk =>
      obtain ⟨q', hq', hs⟩ := ih (hk a)
      rw [List.filterMap_cons_none (hnone a)]
      exact ⟨q', hq', hs⟩
    | visible g hsome hk =>
      obtain ⟨q', hq', hs⟩ := ih (hk a)
      rw [List.filterMap_cons_some (hsome a)]
      exact ⟨q', .cons hq', hs⟩

/-- What a program returns is what the one it simulates returns. -/
theorem Simulates.returned {erase : Event Ans → Option (Event Ans')} {a : α} {q : Program Req' Ans' α}
    (h : Simulates erase (.ret a) q) : q = .ret a := by
  cases h
  rfl

end Interact.Program

namespace Interact

variable {Req Req' : Type} {Ans : Req → Type} {Ans' : Req' → Type} {ε α β γ : Type}
  {erase : Event Ans → Option (Event Ans')}

theorem simulates_ask_bind {r : Req} {r' : Req'} (g : Ans r → Ans' r') (hr : ∀ a, erase ⟨r, a⟩ = some ⟨r', g a⟩)
    {f : Ans r → Call Req Ans ε α} {f' : Ans' r' → Call Req' Ans' ε α}
    (hf : ∀ a, Program.Simulates erase (f a).run (f' (g a)).run) :
    Program.Simulates erase (ask r >>= f).run (ask r' >>= f').run := .visible g hr hf

theorem simulates_silent_bind {r : Req} (hr : ∀ a, erase ⟨r, a⟩ = none) {f : Ans r → Call Req Ans ε α}
    {q : Call Req' Ans' ε α} (hf : ∀ a, Program.Simulates erase (f a).run q.run) :
    Program.Simulates erase (ask r >>= f).run q.run := .silent hr hf

theorem simulates_exit_bind {x : Except ε β} {x' : Except ε γ} {g : β → γ} {f : β → Call Req Ans ε α} {f' : γ → Call Req' Ans' ε α}
    (hx : x.map g = x') (hf : ∀ b, x = .ok b → Program.Simulates erase (f b).run (f' (g b)).run) :
    Program.Simulates erase (exit x >>= f).run (exit x' >>= f').run := by
  subst hx
  cases x with
  | error e => exact .ret _
  | ok b => exact hf b rfl

end Interact
