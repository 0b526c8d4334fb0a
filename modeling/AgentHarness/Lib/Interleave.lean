/-
Any number of programs running against one shared state, interleaved in any
order at the granularity of one request. What a request does to the shared
state, and which answers it can get there, is a parameter.

`Run.invariant` is the rely–guarantee rule: an invariant of the shared state
may be used to show that every answer is one its program relies on, and the
guarantee of every request may be used to show that the step it makes keeps
the invariant.
-/
import Mathlib.Logic.Function.Basic
import AgentHarness.Lib.Program

namespace Interact

universe u v w x y

variable {ι : Type x} {Req : Type u} {Ans : Req → Type v} {α : Type w} {σ : Type y}

/-- A shared state and what is left to run of each program. -/
structure World (ι : Type x) (Req : Type u) (Ans : Req → Type v) (α : Type w) (σ : Type y) where
  shared : σ
  prog : ι → Program Req Ans α

/-- The events of a run in order, each with the program it belongs to. -/
abbrev Trace (ι : Type x) {Req : Type u} (Ans : Req → Type v) := List (ι × Event Ans)

/-- What a request by `i` does: the answers it can get in a shared state,
and the state each leaves. -/
abbrev Effect (ι : Type x) {Req : Type u} (Ans : Req → Type v) (σ : Type y) :=
  ι → σ → (r : Req) → Ans r → σ → Prop

variable {exec : Effect ι Ans σ}

/-- What the events of a trace do to the shared state, whoever makes them. -/
inductive Steps (exec : Effect ι Ans σ) (s : σ) : Trace ι Ans → σ → Prop
  | nil : Steps exec s [] s
  | snoc {tr s' i r a s''} : Steps exec s tr s' → exec i s' r a s'' → Steps exec s (tr ++ [(i, ⟨r, a⟩)]) s''

theorem Steps.append {s s' s'' : σ} {tr tr' : Trace ι Ans} (h : Steps exec s tr s') (h' : Steps exec s' tr' s'') :
    Steps exec s (tr ++ tr') s'' := by
  induction h' with
  | nil => rw [List.append_nil]; exact h
  | snoc _ hx ih => rw [← List.append_assoc]; exact .snoc ih hx

theorem Steps.cons {s s' s'' : σ} {i : ι} {r : Req} {a : Ans r} {tr : Trace ι Ans} (hx : exec i s r a s')
    (h : Steps exec s' tr s'') : Steps exec s ((i, ⟨r, a⟩) :: tr) s'' :=
  Steps.append (.snoc .nil hx) h

section
variable [DecidableEq ι]

/-- `i`'s own events. -/
def mine (i : ι) (tr : Trace ι Ans) : List (Event Ans) :=
  tr.filterMap fun x => if x.1 = i then some x.2 else none

@[simp] theorem mine_nil (i : ι) : mine i ([] : Trace ι Ans) = [] := rfl

@[simp] theorem mine_append (i : ι) (tr tr' : Trace ι Ans) : mine i (tr ++ tr') = mine i tr ++ mine i tr' := by
  simp [mine]

@[simp] theorem mine_self (i : ι) (e : Event Ans) : mine i [(i, e)] = [e] := by simp [mine]

theorem mine_other {i j : ι} (hij : j ≠ i) (e : Event Ans) : mine i [(j, e)] = [] := by simp [mine, hij]

theorem mine_cons_self (i : ι) (e : Event Ans) (tr : Trace ι Ans) : mine i ((i, e) :: tr) = e :: mine i tr := by
  simp [mine]

theorem mine_cons_other {i j : ι} (hij : j ≠ i) (e : Event Ans) (tr : Trace ι Ans) :
    mine i ((j, e) :: tr) = mine i tr := by simp [mine, hij]

@[simp] theorem mem_mine {i : ι} {e : Event Ans} {tr : Trace ι Ans} : e ∈ mine i tr ↔ (i, e) ∈ tr := by
  simp only [mine, List.mem_filterMap, Option.ite_none_right_eq_some, Option.some.injEq, Prod.exists]
  constructor
  · rintro ⟨j, e', h, rfl, rfl⟩; exact h
  · exact fun h => ⟨i, e, h, rfl, rfl⟩

/-- A history, all of it `i`'s. -/
def tagged (i : ι) (h : List (Event Ans)) : Trace ι Ans := h.map (Prod.mk i)

@[simp] theorem mine_tagged_self (i : ι) (h : List (Event Ans)) : mine i (tagged i h) = h := by
  induction h with
  | nil => rfl
  | cons e h ih =>
    rw [tagged, List.map_cons, mine_cons_self]
    exact congrArg (e :: ·) ih

theorem mine_tagged_other {i j : ι} (hij : j ≠ i) (h : List (Event Ans)) : mine i (tagged j h) = [] := by
  simp [mine, tagged, hij]

/-- `i` has become `p` and the shared state `s`; the other programs stay. -/
def World.advance (w : World ι Req Ans α σ) (i : ι) (p : Program Req Ans α) (s : σ) : World ι Req Ans α σ :=
  ⟨s, Function.update w.prog i p⟩

@[simp] theorem World.advance_shared (w : World ι Req Ans α σ) (i : ι) (p : Program Req Ans α) (s : σ) :
    (w.advance i p s).shared = s := rfl

@[simp] theorem World.advance_self (w : World ι Req Ans α σ) (i : ι) (p : Program Req Ans α) (s : σ) :
    (w.advance i p s).prog i = p := Function.update_self ..

theorem World.advance_other (w : World ι Req Ans α σ) {i j : ι} (hij : j ≠ i) (p : Program Req Ans α) (s : σ) :
    (w.advance i p s).prog j = w.prog j := Function.update_of_ne hij ..

/-- A condition on a step, given the trace and the shared state before it. -/
abbrev StepCond (ι : Type x) {Req : Type u} (Ans : Req → Type v) (σ : Type y) :=
  Trace ι Ans → σ → ι → Event Ans → Prop

/-- The runs from a world whose steps all meet `ok`. -/
inductive Run (exec : Effect ι Ans σ) (ok : StepCond ι Ans σ) (w : World ι Req Ans α σ) :
    Trace ι Ans → World ι Req Ans α σ → Prop
  | nil : Run exec ok w [] w
  | snoc {tr w' i r k a s'} : Run exec ok w tr w' → w'.prog i = .ask r k → exec i w'.shared r a s' →
      ok tr w'.shared i ⟨r, a⟩ →
      Run exec ok w (tr ++ [(i, ⟨r, a⟩)]) (w'.advance i (k a) s')

/-- Every step is allowed. -/
def anyStep : StepCond ι Ans σ := fun _ _ _ _ => True

variable {ok : StepCond ι Ans σ} {w w' : World ι Req Ans α σ} {tr : Trace ι Ans}

namespace Run

theorem mono {ok' : StepCond ι Ans σ} (h : Run exec ok w tr w')
    (hok : ∀ tr s i e, ok tr s i e → ok' tr s i e) : Run exec ok' w tr w' := by
  induction h with
  | nil => exact .nil
  | snoc _ hp he ho ih => exact .snoc ih hp he (hok _ _ _ _ ho)

/-- A run splits where its trace does; the conditions of the second part
still see the whole trace. -/
theorem split {tr tr' : Trace ι Ans} (h : Run exec ok w (tr ++ tr') w') :
    ∃ m, Run exec ok w tr m ∧ Run exec (fun t => ok (tr ++ t)) m tr' w' := by
  generalize he : tr ++ tr' = l at h
  induction h generalizing tr' with
  | nil =>
    obtain ⟨rfl, rfl⟩ := List.append_eq_nil_iff.mp he
    exact ⟨w, .nil, .nil⟩
  | @snoc l w' i r k a s' hl hp hx ho ih =>
    rcases List.eq_nil_or_concat tr' with rfl | ⟨t, x, rfl⟩
    · rw [List.append_nil] at he; subst he
      exact ⟨_, .snoc hl hp hx ho, .nil⟩
    · rw [List.concat_eq_append, ← List.append_assoc] at he
      obtain ⟨ht, hx'⟩ := List.append_inj' he rfl
      obtain ⟨m, h₁, h₂⟩ := ih ht
      simp only [List.cons.injEq, and_true] at hx'
      subst hx'
      rw [List.concat_eq_append]
      exact ⟨m, h₁, .snoc h₂ hp hx (by rw [ht]; exact ho)⟩

/-- A run at one of its steps. -/
theorem split_at {pre post : Trace ι Ans} {i : ι} {e : Event Ans} (h : Run exec ok w (pre ++ (i, e) :: post) w') :
    ∃ m k s', Run exec ok w pre m ∧ m.prog i = .ask e.1 k ∧ exec i m.shared e.1 e.2 s' ∧ ok pre m.shared i e ∧
      Run exec (fun t => ok (pre ++ (i, e) :: t)) (m.advance i (k e.2) s') post w' := by
  have hpre : pre ++ (i, e) :: post = (pre ++ [(i, e)]) ++ post := by simp
  rw [hpre] at h
  obtain ⟨m', h₁, h₂⟩ := h.split
  generalize hl : pre ++ [(i, e)] = l at h₁
  cases h₁ with
  | nil => simp at hl
  | @snoc tr w₁ j r k a s' hr hp hx ho =>
    obtain ⟨rfl, hje⟩ := List.append_inj' hl rfl
    obtain ⟨⟨rfl, rfl⟩, -⟩ : (i = j ∧ e = ⟨r, a⟩) ∧ True := by simpa using hje
    exact ⟨w₁, k, s', hr, hp, hx, ho, by simpa [← hl] using h₂⟩

/-- A run each of whose steps also meets a condition on the trace before it. -/
theorem strengthen (h : Run exec ok w tr w') (ok' : StepCond ι Ans σ)
    (hok : ∀ pre i e post s, tr = pre ++ (i, e) :: post → ok' pre s i e) :
    Run exec (fun t s i e => ok t s i e ∧ ok' t s i e) w tr w' := by
  induction h with
  | nil => exact .nil
  | @snoc tr w' i r k a s' _ hp hx ho ih =>
    refine .snoc (ih fun pre j e post s he => hok pre j e (post ++ [(i, ⟨r, a⟩)]) s (by rw [he]; simp)) hp hx ⟨ho, ?_⟩
    exact hok tr i ⟨r, a⟩ [] _ rfl

/-- **The rely–guarantee rule.** If every program meets its contract from
its history so far, and each step of the run, its request guaranteed,
yields an answer that is relied on and keeps the invariant, then the
invariant holds wherever the run gets to and every program still meets its
contract there. -/
theorem invariant {C : ι → Contract Req Ans} {Q : ι → List (Event Ans) → α → Prop}
    {h₀ : ι → List (Event Ans)} {I : Trace ι Ans → σ → Prop} (hI : I [] w.shared)
    (hp : ∀ i, (w.prog i).Meets (C i) (Q i) (h₀ i))
    (step : ∀ tr s i r a s', I tr s → (C i).guar (h₀ i ++ mine i tr) r → exec i s r a s' →
      ok tr s i ⟨r, a⟩ → (C i).rely (h₀ i ++ mine i tr) r a ∧ I (tr ++ [(i, ⟨r, a⟩)]) s')
    (h : Run exec ok w tr w') :
    I tr w'.shared ∧ ∀ i, (w'.prog i).Meets (C i) (Q i) (h₀ i ++ mine i tr) := by
  induction h with
  | nil => exact ⟨hI, fun i => by simpa using hp i⟩
  | @snoc tr w' i r k a s' _ hask hx ho ih =>
    obtain ⟨hinv, hmeets⟩ := ih
    have hi := hmeets i
    rw [hask] at hi
    obtain ⟨hrely, hinv'⟩ := step _ _ _ _ _ _ hinv hi.1 hx ho
    refine ⟨hinv', fun j => ?_⟩
    by_cases hij : i = j
    · subst hij
      rw [mine_append, mine_self, World.advance_self, ← List.append_assoc]
      exact hi.2 a hrely
    · rw [mine_append, mine_other hij, List.append_nil, World.advance_other _ (Ne.symm hij)]
      exact hmeets j

/-- Executions of the programs, interleaved in any order the shared state
allows, are a run. -/
theorem of_follows {s : σ} {q : ι → Program Req Ans α} (hs : Steps exec w.shared tr s)
    (hf : ∀ i, (w.prog i).Follows (mine i tr) (q i)) : Run exec anyStep w tr ⟨s, q⟩ := by
  induction hs generalizing q with
  | nil =>
    have hq : w.prog = q := funext fun i => (hf i).eq_of_nil
    exact hq ▸ .nil
  | @snoc tr s' i r a s'' _ hx ih =>
    have hi := hf i
    rw [mine_append, mine_self] at hi
    obtain ⟨p, h₁, h₂⟩ := hi.split
    generalize hq : q i = qi at h₂
    cases h₂ with
    | @cons _ k _ _ _ hk =>
      have hqi := hk.eq_of_nil
      have hrun := ih (q := Function.update q i (.ask r k)) fun j => by
        by_cases hij : i = j
        · subst hij
          rw [Function.update_self]
          exact h₁
        · rw [Function.update_of_ne (Ne.symm hij)]
          simpa [mine_other hij] using hf j
      have hlast : Run exec anyStep w _ _ := .snoc hrun (Function.update_self ..) hx trivial
      simpa [World.advance, hqi, ← hq] using hlast

end Run

/-! ## Schedules -/

section
variable (ok) (next : ι → σ → (r : Req) → Option (Ans r × σ)) [∀ tr s i e, Decidable (ok tr s i e)]

/-- The run in which the programs take turns as listed, each request answered
by `next`; none when the next program is done or its step is not allowed. -/
def schedule : List ι → Trace ι Ans → World ι Req Ans α σ → Option (Trace ι Ans × World ι Req Ans α σ)
  | [], tr, w => some (tr, w)
  | i :: turns, tr, w =>
    match w.prog i with
    | .ret _ => none
    | .ask r k =>
      match next i w.shared r with
      | none => none
      | some (a, s) => if ok tr w.shared i ⟨r, a⟩ then schedule turns (tr ++ [(i, ⟨r, a⟩)]) (w.advance i (k a) s) else none

variable {ok next}

theorem Run.of_schedule (hnext : ∀ i s r a s', next i s r = some (a, s') → exec i s r a s') {turns : List ι}
    {w₀ : World ι Req Ans α σ} {tr' : Trace ι Ans} (h : Run exec ok w₀ tr w)
    (hs : schedule ok next turns tr w = some (tr', w')) : Run exec ok w₀ tr' w' := by
  induction turns generalizing tr w with
  | nil =>
    cases hs
    exact h
  | cons i turns ih =>
    unfold schedule at hs
    split at hs
    · exact nomatch hs
    · rename_i r k hask
      split at hs
      · exact nomatch hs
      · rename_i a s hx
        split at hs
        · rename_i ho
          exact ih (.snoc h hask (hnext _ _ _ _ _ hx) ho) hs
        · exact nomatch hs

/-- What a program has returned. -/
def returned (p : Program Req Ans α) : Option α :=
  match p with
  | .ret a => some a
  | .ask _ _ => none

theorem returned_eq_some {p : Program Req Ans α} {a : α} : returned p = some a ↔ p = .ret a := by
  cases p <;> simp [returned]

variable (ok next) in
/-- What `i` has returned at the end of a schedule. -/
def outcome (turns : List ι) (w : World ι Req Ans α σ) (i : ι) : Option α :=
  (schedule ok next turns [] w).bind fun x => returned (x.2.prog i)

theorem Run.of_outcome (hnext : ∀ i s r a s', next i s r = some (a, s') → exec i s r a s') (turns : List ι) {i : ι}
    {x : α} (h : outcome ok next turns w i = some x) : ∃ tr w', Run exec ok w tr w' ∧ w'.prog i = .ret x := by
  simp only [outcome, Option.bind_eq_some_iff] at h
  obtain ⟨⟨tr, w'⟩, hs, hx⟩ := h
  exact ⟨tr, w', Run.of_schedule hnext .nil hs, returned_eq_some.mp hx⟩

end

instance (tr : Trace ι Ans) (s : σ) (i : ι) (e : Event Ans) : Decidable (anyStep tr s i e) := .isTrue trivial

end

end Interact
