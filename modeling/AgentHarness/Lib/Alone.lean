/-
A program run alone by one party against a shared state: nobody else takes a
step until it has returned. `Alone` is the rule for such a run, whatever the
answers: there always is one, each leads on, and what is returned satisfies
a postcondition with the state it is returned in.
-/
import AgentHarness.Lib.Call
import AgentHarness.Lib.Interleave

namespace Interact

universe u v w x x' y y'

section
variable {ι : Type x} {Req : Type u} {Ans : Req → Type v} {α β : Type w} {σ : Type y}

/-- Run alone by `i` from a state, the program ends in a state and returns a value. -/
inductive Returns (exec : Effect ι Ans σ) (i : ι) : σ → Program Req Ans α → σ → α → Prop
  | ret {s a} : Returns exec i s (.ret a) s a
  | ask {s r k a s' s'' b} : exec i s r a s' → Returns exec i s' (k a) s'' b → Returns exec i s (.ask r k) s'' b

/-- Run alone by `i` from a state, the program returns, and only with `Q`. -/
def Alone (exec : Effect ι Ans σ) (i : ι) (Q : σ → α → Prop) : σ → Program Req Ans α → Prop
  | s, .ret a => Q s a
  | s, .ask r k => (∃ a s', exec i s r a s') ∧ ∀ a s', exec i s r a s' → Alone exec i Q s' (k a)

variable {exec : Effect ι Ans σ} {i : ι} {s s' : σ} {a : α} {p : Program Req Ans α} {Q Q' : σ → α → Prop}
  {R : σ → β → Prop}

namespace Alone

theorem mono (hp : Alone exec i Q s p) (hQ : ∀ s a, Q s a → Q' s a) : Alone exec i Q' s p := by
  induction p generalizing s with
  | ret a => exact hQ s a hp
  | ask r k ih => exact ⟨hp.1, fun a s' hx => ih a (hp.2 a s' hx)⟩

theorem bind {f : α → Program Req Ans β} (hp : Alone exec i Q s p) (hf : ∀ s a, Q s a → Alone exec i R s (f a)) :
    Alone exec i R s (p.bind f) := by
  induction p generalizing s with
  | ret a => exact hf s a hp
  | ask r k ih => exact ⟨hp.1, fun a s' hx => ih a (hp.2 a s' hx)⟩

/-- What holds of whatever a program returns, whoever answers it, also holds of this. -/
theorem and_meets {C : Contract Req Ans} {P : α → Prop} {h : List (Event Ans)} (hp : Alone exec i Q s p)
    (hm : p.Meets C (fun _ a => P a) h) (hC : ∀ h r a, C.rely h r a) : Alone exec i (fun s a => Q s a ∧ P a) s p := by
  induction p generalizing s h with
  | ret a => exact ⟨hp, hm⟩
  | ask r k ih => exact ⟨hp.1, fun a s' hx => ih a (hp.2 a s' hx) (hm.2 a (hC _ _ _))⟩

theorem returns (hp : Alone exec i Q s p) (hr : Returns exec i s p s' a) : Q s' a := by
  induction hr with
  | ret => exact hp
  | ask hx _ ih => exact ih (hp.2 _ _ hx)

theorem exists_returns (hp : Alone exec i Q s p) : ∃ s' a, Returns exec i s p s' a := by
  induction p generalizing s with
  | ret a => exact ⟨s, a, .ret⟩
  | ask r k ih =>
    obtain ⟨⟨a, s', hx⟩, hk⟩ := hp
    obtain ⟨s'', b, hr⟩ := ih a (hk a s' hx)
    exact ⟨s'', b, .ask hx hr⟩

end Alone

theorem Returns.bind_ret {f : α → β} (hr : Returns exec i s p s' a) :
    Returns exec i s (p.bind fun a => .ret (f a)) s' (f a) := by
  induction hr with
  | ret => exact .ret
  | ask hx _ ih => exact .ask hx ih

/-- A run alone is an execution. -/
theorem Returns.follows (hr : Returns exec i s p s' a) : ∃ tr, p.Follows tr (.ret a) := by
  induction hr with
  | ret => exact ⟨[], .nil⟩
  | ask _ _ ih =>
    obtain ⟨tr, hf⟩ := ih
    exact ⟨_, .cons hf⟩

/-- What a program does in one way to be answered it does in a looser one. -/
theorem Returns.mono {exec' : Effect ι Ans σ} (hexec : ∀ s r a s', exec i s r a s' → exec' i s r a s')
    (hr : Returns exec i s p s' a) : Returns exec' i s p s' a := by
  induction hr with
  | ret => exact .ret
  | ask hx _ ih => exact .ask (hexec _ _ _ _ hx) ih

/-- **A run against one state is a run against another** as long as the two are
related, and the requests of the program do to the second only what they can
do to the first. -/
theorem Alone.simulate {κ : Type x'} {τ : Type y'} {exec' : Effect κ Ans τ} {j : κ} {t : τ} {J : σ → τ → Prop}
    {P : Req → Prop} {T : α → Prop} (hp : Alone exec i Q s p) (hasks : p.Asks P T) (hJ : J s t)
    (hstep : ∀ s t r, J s t → P r → (∃ a s', exec i s r a s') → (∃ a t', exec' j t r a t') ∧
      ∀ a t', exec' j t r a t' → ∃ s', exec i s r a s' ∧ J s' t') :
    Alone exec' j (fun t a => ∃ s, J s t ∧ Q s a) t p := by
  induction p generalizing s t with
  | ret a => exact ⟨s, hJ, hp⟩
  | ask r k ih =>
    obtain ⟨hanswer, hback⟩ := hstep s t r hJ hasks.1 hp.1
    refine ⟨hanswer, fun a t' hx' => ?_⟩
    obtain ⟨s', hx, hJ'⟩ := hback a t' hx'
    exact ih a (hp.2 a s' hx) (hasks.2 a) hJ'

/-- A run keeps what each request of a kind keeps, whatever it is answered. -/
theorem Program.Asks.alone {P : Req → Prop} {T : α → Prop} {J : σ → Prop} (hp : p.Asks P T) (hJ : J s)
    (hstep : ∀ s r, J s → P r → (∃ a s', exec i s r a s') ∧ ∀ a s', exec i s r a s' → J s') :
    Alone exec i (fun s a => J s ∧ T a) s p := by
  induction p generalizing s with
  | ret a => exact ⟨hJ, hp⟩
  | ask r k ih =>
    obtain ⟨hanswer, hkeeps⟩ := hstep s r hJ hp.1
    exact ⟨hanswer, fun a s' hx => ih a (hp.2 a) (hkeeps a s' hx)⟩

/-- The program run alone, with one of the answers to each request. -/
def Program.play (next : ι → σ → (r : Req) → Option (Ans r × σ)) (i : ι) : σ → Program Req Ans α → Option (α × σ)
  | s, .ret a => some (a, s)
  | s, .ask r k => (next i s r).bind fun x => play next i x.2 (k x.1)

theorem Returns.of_play {next : ι → σ → (r : Req) → Option (Ans r × σ)}
    (hnext : ∀ i s r a s', next i s r = some (a, s') → exec i s r a s') (h : p.play next i s = some (a, s')) :
    Returns exec i s p s' a := by
  induction p generalizing s with
  | ret b =>
    cases h
    exact .ret
  | ask r k ih =>
    obtain ⟨x, hx, h⟩ := Option.bind_eq_some_iff.mp h
    exact .ask (hnext i s r x.1 x.2 hx) (ih x.1 h)

/-- The request has one answer, and leaves one state. -/
def Answers (exec : Effect ι Ans σ) (i : ι) (s : σ) (r : Req) (a : Ans r) (s' : σ) : Prop :=
  ∀ b s'', exec i s r b s'' ↔ b = a ∧ s'' = s'

theorem alone_ask_of_answers {r : Req} {a : Ans r} {k : Ans r → Program Req Ans α} (h : Answers exec i s r a s') :
    Alone exec i Q s (.ask r k) ↔ Alone exec i Q s' (k a) := by
  constructor
  · intro hp
    exact hp.2 a s' ((h a s').mpr ⟨rfl, rfl⟩)
  · intro hk
    refine ⟨⟨a, s', (h a s').mpr ⟨rfl, rfl⟩⟩, fun b s'' hx => ?_⟩
    obtain ⟨rfl, rfl⟩ := (h b s'').mp hx
    exact hk

theorem alone_request_bind {γ : Type v} {Q : σ → γ → Prop} {r : Req} {a : Ans r} {f : Ans r → Program Req Ans γ}
    (h : Answers exec i s r a s') : Alone exec i Q s (Program.request r >>= f) ↔ Alone exec i Q s' (f a) :=
  alone_ask_of_answers h

end

/-! ## Programs with early exits -/

section
variable {ι : Type x} {Req : Type} {Ans : Req → Type u} {ε α β : Type u} {σ : Type y} {exec : Effect ι Ans σ} {i : ι}
  {s s' : σ} {Q : σ → Except ε α → Prop}

theorem alone_pure {a : α} : Alone exec i Q s (pure a : Call Req Ans ε α).run ↔ Q s (.ok a) := Iff.rfl

theorem alone_exit {x : Except ε α} : Alone exec i Q s (exit x : Call Req Ans ε α).run ↔ Q s x := Iff.rfl

theorem alone_ask_bind {r : Req} {a : Ans r} {f : Ans r → Call Req Ans ε α} (h : Answers exec i s r a s') :
    Alone exec i Q s (ask r >>= f).run ↔ Alone exec i Q s' (f a).run := alone_ask_of_answers h

theorem alone_exit_bind {x : Except ε β} {f : β → Call Req Ans ε α} :
    Alone exec i Q s (exit x >>= f).run ↔
      (∀ e, x = .error e → Q s (.error e)) ∧ ∀ b, x = .ok b → Alone exec i Q s (f b).run := by
  cases x with
  | error e => simp only [Except.error.injEq, forall_eq', reduceCtorEq, false_implies, implies_true, and_true]; rfl
  | ok a => simp only [reduceCtorEq, false_implies, implies_true, Except.ok.injEq, forall_eq', true_and]; rfl

theorem alone_bind {R : σ → Except ε β → Prop} {p : Call Req Ans ε β} {f : β → Call Req Ans ε α}
    (hp : Alone exec i R s p.run) (herr : ∀ s e, R s (.error e) → Q s (.error e))
    (hok : ∀ s b, R s (.ok b) → Alone exec i Q s (f b).run) : Alone exec i Q s (p >>= f).run :=
  Alone.bind hp fun s x hx => by
    cases x with
    | error e => exact herr s e hx
    | ok b => exact hok s b hx

theorem alone_lift_bind {R : σ → β → Prop} {p : Program Req Ans β} {f : β → Call Req Ans ε α}
    (hp : Alone exec i R s p) (hf : ∀ s b, R s b → Alone exec i Q s (f b).run) :
    Alone exec i Q s (ExceptT.lift p >>= f).run := by
  have hb : (ExceptT.lift p >>= f).run = p.bind fun a => (f a).run := Program.bind_assoc ..
  rw [hb]
  exact hp.bind hf

end

end Interact
