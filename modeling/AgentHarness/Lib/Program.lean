/-
Programs that ask an environment and go on with its answers: a tree whose
nodes are requests and whose branches are the answers. Nothing is said here
of what a request means; the environment decides, and a property proved of
a program holds whatever it decides.

A program is reasoned about by the exchanges it has had so far (its
history). A contract has two halves: what the environment's answers may be
relied on to satisfy, and what the program guarantees of each request it
makes. `Program.Meets` says a program keeps its half from a given history
on, and that what it returns satisfies a postcondition.
-/
import Mathlib.Data.List.Induction

namespace Interact

universe u v w

/-- A program over requests `Req`, each answered in `Ans r`, returning an `α`. -/
inductive Program (Req : Type u) (Ans : Req → Type v) (α : Type w) where
  | ret (a : α)
  | ask (r : Req) (k : Ans r → Program Req Ans α)

/-- A request together with the answer it got. -/
abbrev Event {Req : Type u} (Ans : Req → Type v) := (r : Req) × Ans r

variable {Req : Type u} {Ans : Req → Type v} {α β : Type w}

namespace Program

/-- Run `p`, then `f` of what it returned. -/
def bind : Program Req Ans α → (α → Program Req Ans β) → Program Req Ans β
  | .ret a, f => f a
  | .ask r k, f => .ask r fun a => (k a).bind f

/-- Make one request and return its answer. -/
def request (r : Req) : Program Req Ans (Ans r) := .ask r .ret

instance : Monad (Program Req Ans) where
  pure := .ret
  bind := bind

@[simp] theorem pure_eq (a : α) : (pure a : Program Req Ans α) = .ret a := rfl
@[simp] theorem bind_eq (p : Program Req Ans α) (f : α → Program Req Ans β) : (p >>= f) = p.bind f := rfl
@[simp] theorem ret_bind (a : α) (f : α → Program Req Ans β) : (ret a).bind f = f a := rfl
@[simp] theorem ask_bind (r : Req) (k : Ans r → Program Req Ans α) (f : α → Program Req Ans β) :
    (ask r k).bind f = .ask r fun a => (k a).bind f := rfl

theorem bind_assoc {γ : Type w} (p : Program Req Ans α) (f : α → Program Req Ans β) (g : β → Program Req Ans γ) :
    (p.bind f).bind g = p.bind fun a => (f a).bind g := by
  induction p with
  | ret a => rfl
  | ask r k ih => simp only [ask_bind, ih]

/-! ## Executions -/

/-- `p`, having exchanged the events of `tr` in order, has become `q`. -/
inductive Follows : Program Req Ans α → List (Event Ans) → Program Req Ans α → Prop
  | nil {p} : Follows p [] p
  | cons {r k a tr q} : Follows (k a) tr q → Follows (.ask r k) (⟨r, a⟩ :: tr) q

theorem Follows.eq_of_nil {p q : Program Req Ans α} (h : Follows p [] q) : p = q := by
  cases h
  rfl

/-- Executions of two programs in sequence. -/
theorem Follows.bind {p : Program Req Ans α} {f : α → Program Req Ans β} {a : α} {tr tr' q}
    (h : Follows p tr (.ret a)) (h' : Follows (f a) tr' q) : Follows (p.bind f) (tr ++ tr') q := by
  generalize he : Program.ret a = p' at h
  induction h with
  | nil => subst he; exact h'
  | cons _ ih => exact .cons (ih he)

theorem Follows.bind_ret {p : Program Req Ans α} {f : α → β} {a : α} {tr} (h : Follows p tr (.ret a)) :
    Follows (p.bind fun a => .ret (f a)) tr (.ret (f a)) := by
  simpa using h.bind (f := fun a => .ret (f a)) .nil

/-- An execution goes on by one exchange. -/
theorem Follows.snoc {p : Program Req Ans α} {tr : List (Event Ans)} {r : Req} {k : Ans r → Program Req Ans α}
    (h : p.Follows tr (.ask r k)) (a : Ans r) : p.Follows (tr ++ [⟨r, a⟩]) (k a) := by
  generalize hq : ask r k = q at h
  induction h with
  | nil =>
    subst hq
    exact .cons .nil
  | cons _ ih => exact .cons (ih hq)

/-- An execution splits where its history does. -/
theorem Follows.split {p q : Program Req Ans α} {tr tr'} (h : Follows p (tr ++ tr') q) :
    ∃ m, Follows p tr m ∧ Follows m tr' q := by
  induction tr generalizing p with
  | nil => exact ⟨p, .nil, h⟩
  | cons e tr ih =>
    cases h with
    | cons h =>
      obtain ⟨m, h₁, h₂⟩ := ih h
      exact ⟨m, .cons h₁, h₂⟩

/-- An execution of two programs in sequence is one of the first, or all of
the first and then one of the second. -/
theorem Follows.of_bind {p : Program Req Ans α} {f : α → Program Req Ans β} {tr q} (h : Follows (p.bind f) tr q) :
    (∃ r k, Follows p tr (.ask r k) ∧ q = (Program.ask r k).bind f) ∨
      ∃ tr₁ tr₂ a, tr = tr₁ ++ tr₂ ∧ Follows p tr₁ (.ret a) ∧ Follows (f a) tr₂ q := by
  induction p generalizing tr with
  | ret a => exact .inr ⟨[], tr, a, rfl, .nil, h⟩
  | ask r k ih =>
    cases h with
    | nil => exact .inl ⟨r, k, .nil, rfl⟩
    | @cons _ _ a tr _ h =>
      obtain ⟨r', k', hp, rfl⟩ | ⟨tr₁, tr₂, b, rfl, hp, hf⟩ := ih a h
      · exact .inl ⟨r', k', .cons hp, rfl⟩
      · exact .inr ⟨⟨r, a⟩ :: tr₁, tr₂, b, rfl, .cons hp, hf⟩

/-- Every request `p` can make is of a kind, and so is everything it can return. -/
def Asks (P : Req → Prop) (R : α → Prop) : Program Req Ans α → Prop
  | .ret a => R a
  | .ask r k => P r ∧ ∀ a, Asks P R (k a)

theorem Asks.follows {P : Req → Prop} {R : α → Prop} {p q : Program Req Ans α} {tr} (hp : p.Asks P R)
    (hf : Follows p tr q) : (∀ e ∈ tr, P e.1) ∧ q.Asks P R := by
  induction hf with
  | nil =>
    refine ⟨?_, hp⟩
    intro e he
    cases he
  | @cons r k a tr q _ ih =>
    obtain ⟨htr, hq⟩ := ih (hp.2 a)
    exact ⟨List.forall_mem_cons.mpr ⟨hp.1, htr⟩, hq⟩

theorem Asks.bind {P : Req → Prop} {R : α → Prop} {R' : β → Prop} {p : Program Req Ans α}
    {f : α → Program Req Ans β} (hp : p.Asks P R) (hf : ∀ a, R a → (f a).Asks P R') : (p.bind f).Asks P R' := by
  induction p with
  | ret a => exact hf a hp
  | ask r k ih => exact ⟨hp.1, fun a => ih a (hp.2 a)⟩

theorem Asks.mono {P P' : Req → Prop} {R : α → Prop} {p : Program Req Ans α} (hp : p.Asks P R) (hP : ∀ r, P r → P' r) :
    p.Asks P' R := by
  induction p with
  | ret a => exact hp
  | ask r k ih => exact ⟨hP r hp.1, fun a => ih a (hp.2 a)⟩

theorem asks_request_bind {γ : Type v} {P : Req → Prop} {R : γ → Prop} {r : Req} {f : Ans r → Program Req Ans γ}
    (hr : P r) (hf : ∀ a, (f a).Asks P R) : (request r >>= f).Asks P R := ⟨hr, hf⟩

end Program

/-! ## Contracts -/

/-- What a program may rely on of an answer, and what it guarantees of a
request, each given the history before it. -/
structure Contract (Req : Type u) (Ans : Req → Type v) where
  rely : List (Event Ans) → (r : Req) → Ans r → Prop
  guar : List (Event Ans) → Req → Prop

/-- The contract that relies on nothing: every answer is possible. -/
def Contract.free (guar : List (Event Ans) → Req → Prop) : Contract Req Ans where
  rely := fun _ _ _ => True
  guar := guar

@[simp] theorem Contract.free_rely (guar : List (Event Ans) → Req → Prop) (h r a) :
    (Contract.free guar).rely h r a := trivial

@[simp] theorem Contract.free_guar (guar : List (Event Ans) → Req → Prop) :
    (Contract.free guar).guar = guar := rfl

namespace Program

variable {C : Contract Req Ans} {h : List (Event Ans)}

/-- From history `h` on, `p` makes only requests the contract allows, as
long as the answers are ones it relies on, and whatever it returns
satisfies `Q` with the history it returns at. -/
def Meets (C : Contract Req Ans) (Q : List (Event Ans) → α → Prop) :
    List (Event Ans) → Program Req Ans α → Prop
  | h, .ret a => Q h a
  | h, .ask r k => C.guar h r ∧ ∀ a, C.rely h r a → Meets C Q (h ++ [⟨r, a⟩]) (k a)

variable {Q : List (Event Ans) → α → Prop} {Q' : List (Event Ans) → β → Prop}

@[simp] theorem meets_ret {a : α} : Meets C Q h (.ret a) ↔ Q h a := Iff.rfl

/-- Sequencing: what the first program returns with is what the second
starts from. -/
theorem Meets.bind {p : Program Req Ans α} {f : α → Program Req Ans β} (hp : Meets C Q h p)
    (hf : ∀ h a, Q h a → Meets C Q' h (f a)) : Meets C Q' h (p.bind f) := by
  induction p generalizing h with
  | ret a => exact hf h a hp
  | ask r k ih => exact ⟨hp.1, fun a ha => ih a (hp.2 a ha)⟩

theorem Meets.mono {Q₂ : List (Event Ans) → α → Prop} {p : Program Req Ans α} (hp : Meets C Q h p)
    (hQ : ∀ h a, Q h a → Q₂ h a) : Meets C Q₂ h p := by
  induction p generalizing h with
  | ret a => exact hQ h a hp
  | ask r k ih => exact ⟨hp.1, fun a ha => ih a (hp.2 a ha)⟩

/-- A program keeps two contracts at once, if neither relies on anything. -/
theorem Meets.and_free {G G' : List (Event Ans) → Req → Prop} {R : List (Event Ans) → α → Prop} {p : Program Req Ans α}
    (hp : Meets (.free G) Q h p) (hp' : Meets (.free G') R h p) :
    Meets (.free fun h r => G h r ∧ G' h r) (fun h a => Q h a ∧ R h a) h p := by
  induction p generalizing h with
  | ret a => exact ⟨hp, hp'⟩
  | ask r k ih => exact ⟨⟨hp.1, hp'.1⟩, fun a ha => ih a (hp.2 a ha) (hp'.2 a ha)⟩

/-- A contract that asks for less is kept too. -/
theorem Meets.weaken {G G' : List (Event Ans) → Req → Prop} {p : Program Req Ans α} (hp : Meets (.free G) Q h p)
    (hG : ∀ h r, G h r → G' h r) : Meets (.free G') Q h p := by
  induction p generalizing h with
  | ret a => exact hp
  | ask r k ih => exact ⟨hG h r hp.1, fun a ha => ih a (hp.2 a ha)⟩

/-- Nothing is asked for, and nothing said. -/
theorem meets_any (p : Program Req Ans α) : p.Meets (.free fun _ _ => True) (fun _ _ => True) h := by
  induction p generalizing h with
  | ret a => trivial
  | ask r k ih => exact ⟨trivial, fun a _ => ih a⟩

/-- A program asks for and returns what it has followed its history to. -/
theorem meets_follows (p : Program Req Ans α) :
    p.Meets (.free fun h r => ∃ k, p.Follows h (.ask r k)) (fun h a => p.Follows h (.ret a)) [] := by
  suffices hq : ∀ h q, p.Follows h q →
      q.Meets (.free fun h r => ∃ k, p.Follows h (.ask r k)) (fun h a => p.Follows h (.ret a)) h from hq [] p .nil
  intro h q hf
  induction q generalizing h with
  | ret a => exact hf
  | ask r k ih => exact ⟨⟨k, hf⟩, fun a _ => ih a _ (hf.snoc a)⟩

/-- What has been exchanged stays in the history. -/
theorem meets_prefix (p : Program Req Ans α) : p.Meets (.free fun _ _ => True) (fun h' _ => h <+: h') h := by
  suffices h₀ : ∀ h₀, h₀ <+: h → p.Meets (.free fun _ _ => True) (fun h' _ => h₀ <+: h') h from h₀ h (List.prefix_refl h)
  induction p generalizing h with
  | ret a => exact fun _ hp => hp
  | ask r k ih => exact fun h₀ hp => ⟨trivial, fun a _ => ih a h₀ (hp.trans (List.prefix_append h _))⟩

/-- A program keeps a contract that its kind of requests keeps, and what no
such request changes. -/
theorem Asks.meets {P : Req → Prop} {R : α → Prop} {J : List (Event Ans) → Prop} {p : Program Req Ans α}
    (hp : p.Asks P R) (hJ : J h) (hguar : ∀ h r, J h → P r → C.guar h r)
    (hstep : ∀ h r a, J h → P r → C.rely h r a → J (h ++ [⟨r, a⟩])) : p.Meets C (fun h a => J h ∧ R a) h := by
  induction p generalizing h with
  | ret a => exact ⟨hJ, hp⟩
  | ask r k ih => exact ⟨hguar h r hJ hp.1, fun a ha => ih a (hp.2 a) (hstep h r a hJ hp.1 ha)⟩

theorem meets_request_bind {γ : Type v} {Q : List (Event Ans) → γ → Prop} {r : Req} {f : Ans r → Program Req Ans γ} :
    Meets C Q h (request r >>= f) ↔ C.guar h r ∧ ∀ a, C.rely h r a → Meets C Q (h ++ [⟨r, a⟩]) (f a) := Iff.rfl

/-- A program that keeps a contract still keeps it after any execution whose
answers it could rely on. -/
theorem Meets.follows {p q : Program Req Ans α} {tr} (hp : Meets C Q h p) (hf : Follows p tr q)
    (hr : ∀ pre e post, tr = pre ++ e :: post → C.rely (h ++ pre) e.1 e.2) : Meets C Q (h ++ tr) q := by
  induction hf generalizing h with
  | nil => simpa using hp
  | @cons r k a tr q _ ih =>
    have h₁ := hp.2 a (by simpa using hr [] ⟨r, a⟩ tr rfl)
    have h₂ := ih h₁ fun pre e post he => by
      simpa using hr (⟨r, a⟩ :: pre) e post (by rw [he, List.cons_append])
    simpa using h₂

/-- Every request of an execution is one the contract allows. -/
theorem Meets.guar {p q : Program Req Ans α} {pre e post} (hp : Meets C Q h p)
    (hf : Follows p (pre ++ e :: post) q)
    (hr : ∀ pre' e' post', pre = pre' ++ e' :: post' → C.rely (h ++ pre') e'.1 e'.2) :
    C.guar (h ++ pre) e.1 := by
  obtain ⟨m, h₁, h₂⟩ := hf.split
  have hm := hp.follows h₁ hr
  cases h₂ with
  | cons _ => exact hm.1

/-- What an execution of a program under a contract that relies on nothing
ends in still meets the contract. -/
theorem Meets.follows_free {G : List (Event Ans) → Req → Prop} {p q : Program Req Ans α} {tr}
    (hp : Meets (.free G) Q [] p) (hf : Follows p tr q) : Meets (.free G) Q tr q := by
  simpa using hp.follows hf fun _ _ _ _ => trivial

theorem Meets.guar_free {G : List (Event Ans) → Req → Prop} {p q : Program Req Ans α} {pre e post}
    (hp : Meets (.free G) Q [] p) (hf : Follows p (pre ++ e :: post) q) : G pre e.1 := by
  simpa using hp.guar hf fun _ _ _ _ => trivial

end Program

/-- Events of a kind that occurs only where fewer than `n` of it came before
are at most `n`. -/
theorem countP_le_of_guarded {p : Event Ans → Bool} {n : Nat} {tr : List (Event Ans)}
    (h : ∀ pre e post, tr = pre ++ e :: post → p e = true → pre.countP p < n) : tr.countP p ≤ n := by
  induction tr using List.reverseRecOn with
  | nil => exact Nat.zero_le n
  | append_singleton tr e ih =>
    rw [List.countP_append, List.countP_singleton]
    split
    · exact h tr e [] rfl (by assumption)
    · exact ih fun pre e' post he hp => h pre e' (post ++ [e]) (by rw [he]; simp) hp

/-- The one event of a kind in a history is the same however it is pointed at. -/
theorem eq_of_append_cons_eq {p : Event Ans → Bool} {pre mid h₁ h₂ : List (Event Ans)} {e e' : Event Ans}
    (h : pre ++ e :: mid = h₁ ++ e' :: h₂) (he : p e = true) (he' : p e' = true)
    (hn₁ : h₁.countP p = 0) (hn₂ : h₂.countP p = 0) : pre = h₁ ∧ e = e' ∧ mid = h₂ := by
  rcases List.append_eq_append_iff.mp h with ⟨as, rfl, hc⟩ | ⟨bs, rfl, hc⟩
  · cases as with
    | nil =>
      obtain ⟨rfl, rfl⟩ := List.cons.inj hc
      exact ⟨(List.append_nil _).symm, rfl, rfl⟩
    | cons a as =>
      obtain ⟨rfl, -⟩ := List.cons.inj hc
      exact absurd he (List.countP_eq_zero.mp hn₁ e (by simp))
  · cases bs with
    | nil =>
      obtain ⟨rfl, rfl⟩ := List.cons.inj hc
      exact ⟨List.append_nil _, rfl, rfl⟩
    | cons b bs =>
      obtain ⟨-, rfl⟩ := List.cons.inj hc
      exact absurd he (List.countP_eq_zero.mp hn₂ e (by simp))

end Interact
