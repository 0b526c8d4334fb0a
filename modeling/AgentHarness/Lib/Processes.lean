/-
Programs as processes: any number of them run against one shared state, as
in `Run`, and any of them may be killed before its next request. What a
killed process leaves of the shared state is a parameter.

`Processes.Run.invariant` is the rely–guarantee rule for such runs: a kill
keeps the invariant too, and what is promised of a program is promised of
what is left of it as long as it is not killed.
-/
import AgentHarness.Lib.Interleave

namespace Interact

universe u v w x y

variable {ι : Type x} {Req : Type u} {Ans : Req → Type v} {α : Type w} {σ : Type y}

/-- What happens to a process: it is answered, or killed. -/
inductive Happening (ι : Type x) {Req : Type u} (Ans : Req → Type v) where
  | exchanged (i : ι) (e : Event Ans)
  | killed (i : ι)

/-- A shared state and what is left to run of each process that has not been killed. -/
structure Processes (ι : Type x) (Req : Type u) (Ans : Req → Type v) (α : Type w) (σ : Type y) where
  shared : σ
  prog : ι → Option (Program Req Ans α)

namespace Processes

variable [DecidableEq ι]

/-- `i` has become `p` and the shared state `s`; the other processes stay. -/
def put (w : Processes ι Req Ans α σ) (i : ι) (p : Option (Program Req Ans α)) (s : σ) : Processes ι Req Ans α σ :=
  ⟨s, Function.update w.prog i p⟩

/-- The runs from some processes. -/
inductive Run (exec : Effect ι Ans σ) (kill : ι → σ → σ → Prop) (w : Processes ι Req Ans α σ) :
    List (Happening ι Ans) → Processes ι Req Ans α σ → Prop
  | nil : Run exec kill w [] w
  | exchanged {tr w' i r k a s} : Run exec kill w tr w' → w'.prog i = some (.ask r k) → exec i w'.shared r a s →
      Run exec kill w (tr ++ [.exchanged i ⟨r, a⟩]) (w'.put i (some (k a)) s)
  | killed {tr w' i r k s} : Run exec kill w tr w' → w'.prog i = some (.ask r k) → kill i w'.shared s →
      Run exec kill w (tr ++ [.killed i]) (w'.put i none s)

/-- What `i` has exchanged. -/
def own (i : ι) (tr : List (Happening ι Ans)) : List (Event Ans) :=
  tr.filterMap fun
    | .exchanged j e => if j = i then some e else none
    | .killed _ => none

@[simp] theorem own_nil (i : ι) : own i ([] : List (Happening ι Ans)) = [] := rfl

@[simp] theorem own_append (i : ι) (tr tr' : List (Happening ι Ans)) : own i (tr ++ tr') = own i tr ++ own i tr' := by
  simp [own]

@[simp] theorem own_exchanged_self (i : ι) (e : Event Ans) : own i [.exchanged i e] = [e] := by simp [own]

theorem own_exchanged_other {i j : ι} (hij : j ≠ i) (e : Event Ans) : own i [.exchanged j e] = [] := by simp [own, hij]

@[simp] theorem own_killed (i j : ι) : own i [(.killed j : Happening ι Ans)] = [] := rfl

@[simp] theorem mem_own {i : ι} {e : Event Ans} {tr : List (Happening ι Ans)} : e ∈ own i tr ↔ .exchanged i e ∈ tr := by
  simp only [own, List.mem_filterMap]
  constructor
  · intro h
    obtain ⟨x, hx, he⟩ := h
    cases x with
    | killed j => cases he
    | exchanged j e' =>
      obtain ⟨rfl, rfl⟩ : j = i ∧ e' = e := by simpa using he
      exact hx
  · exact fun h => ⟨_, h, by simp⟩

variable {exec : Effect ι Ans σ} {kill : ι → σ → σ → Prop} {w w' : Processes ι Req Ans α σ} {tr tr' : List (Happening ι Ans)}
  {i : ι} {p : Program Req Ans α}

theorem put_prog {j : ι} {q : Option (Program Req Ans α)} {s : σ} (h : (w.put i q s).prog j = some p) :
    (j = i ∧ q = some p) ∨ (j ≠ i ∧ w.prog j = some p) := by
  by_cases hij : j = i
  · subst hij
    exact .inl ⟨rfl, by simpa [put] using h⟩
  · exact .inr ⟨hij, by simpa [put, hij] using h⟩

namespace Run

/-- A process that is left has not been killed. -/
theorem alive (h : Run exec kill w tr w') (hp : w'.prog i = some p) : .killed i ∉ tr := by
  induction h generalizing p with
  | nil => exact List.not_mem_nil
  | exchanged _ hask _ ih =>
    rw [List.mem_append, not_or]
    refine ⟨?_, by simp⟩
    rcases put_prog hp with ⟨rfl, -⟩ | ⟨-, hp⟩
    · exact ih hask
    · exact ih hp
  | killed _ hask _ ih =>
    rcases put_prog hp with ⟨-, hnone⟩ | ⟨hij, hp⟩
    · cases hnone
    · simpa [hij] using ih hp

theorem eq_of_nil (h : Run exec kill w [] w') : w' = w := by
  generalize ht : [] = l at h
  cases h with
  | nil => rfl
  | exchanged _ _ _ => exact absurd ht.symm (List.append_ne_nil_of_right_ne_nil _ (List.cons_ne_nil _ _))
  | killed _ _ _ => exact absurd ht.symm (List.append_ne_nil_of_right_ne_nil _ (List.cons_ne_nil _ _))

theorem append {w'' : Processes ι Req Ans α σ} (h : Run exec kill w tr w') (h' : Run exec kill w' tr' w'') :
    Run exec kill w (tr ++ tr') w'' := by
  induction h' with
  | nil =>
    rw [List.append_nil]
    exact h
  | exchanged _ hask hx ih =>
    rw [← List.append_assoc]
    exact ih.exchanged hask hx
  | killed _ hask hx ih =>
    rw [← List.append_assoc]
    exact ih.killed hask hx

/-- A run splits where its trace does. -/
theorem split (h : Run exec kill w (tr ++ tr') w') : ∃ m, Run exec kill w tr m ∧ Run exec kill m tr' w' := by
  generalize he : tr ++ tr' = l at h
  induction h generalizing tr' with
  | nil =>
    obtain ⟨rfl, rfl⟩ := List.append_eq_nil_iff.mp he
    exact ⟨w, .nil, .nil⟩
  | exchanged hl hask hx ih =>
    rcases List.eq_nil_or_concat tr' with rfl | ⟨t, x, rfl⟩
    · rw [List.append_nil] at he
      subst he
      exact ⟨_, .exchanged hl hask hx, .nil⟩
    · rw [List.concat_eq_append, ← List.append_assoc] at he
      obtain ⟨rfl, hx'⟩ := List.append_inj' he rfl
      obtain ⟨m, hm, hm'⟩ := ih rfl
      obtain rfl := List.singleton_inj.mp hx'
      exact ⟨m, hm, List.concat_eq_append ▸ hm'.exchanged hask hx⟩
  | killed hl hask hx ih =>
    rcases List.eq_nil_or_concat tr' with rfl | ⟨t, x, rfl⟩
    · rw [List.append_nil] at he
      subst he
      exact ⟨_, .killed hl hask hx, .nil⟩
    · rw [List.concat_eq_append, ← List.append_assoc] at he
      obtain ⟨rfl, hx'⟩ := List.append_inj' he rfl
      obtain ⟨m, hm, hm'⟩ := ih rfl
      obtain rfl := List.singleton_inj.mp hx'
      exact ⟨m, hm, List.concat_eq_append ▸ hm'.killed hask hx⟩

/-- A run begins with its first exchange. -/
theorem head {r : Req} {a : Ans r} (h : Run exec kill w (.exchanged i ⟨r, a⟩ :: tr) w') :
    ∃ k s, w.prog i = some (.ask r k) ∧ exec i w.shared r a s ∧ Run exec kill (w.put i (some (k a)) s) tr w' := by
  have hcons : Run exec kill w ([.exchanged i ⟨r, a⟩] ++ tr) w' := h
  obtain ⟨m, hm, hm'⟩ := hcons.split
  generalize hx : [Happening.exchanged i (⟨r, a⟩ : Event Ans)] = l at hm
  cases hm with
  | nil => cases hx
  | exchanged h hask hexec =>
    rcases List.singleton_eq_append_iff.mp hx with ⟨rfl, hlast⟩ | ⟨-, hnil⟩
    · cases hlast
      obtain rfl := h.eq_of_nil
      exact ⟨_, _, hask, hexec, hm'⟩
    · cases hnil
  | killed h hask hexec =>
    rcases List.singleton_eq_append_iff.mp hx with ⟨-, hlast⟩ | ⟨-, hnil⟩
    · cases hlast
    · cases hnil

/-- A process that is not left has been killed. -/
theorem killed_of_none (h : Run exec kill w tr w') (hp : w.prog i = some p) (hnone : w'.prog i = none) :
    .killed i ∈ tr := by
  induction h with
  | nil =>
    rw [hp] at hnone
    cases hnone
  | @exchanged tr w' j r k a s _ hask _ ih =>
    refine List.mem_append_left _ (ih ?_)
    by_cases hij : i = j
    · subst hij
      simp [put] at hnone
    · simpa [put, hij] using hnone
  | @killed tr w' j r k s _ hask _ ih =>
    by_cases hij : i = j
    · subst hij
      exact List.mem_concat_self
    · exact List.mem_append_left _ (ih (by simpa [put, hij] using hnone))

/-- Nothing happens to a process that has returned. -/
theorem idle {a : α} (h : Run exec kill w tr w') (hp : w.prog i = some (.ret a)) :
    w'.prog i = some (.ret a) ∧ (∀ e, .exchanged i e ∉ tr) ∧ .killed i ∉ tr := by
  induction h with
  | nil => exact ⟨hp, fun _ => List.not_mem_nil, List.not_mem_nil⟩
  | @exchanged tr w' j r k a' s _ hask _ ih =>
    obtain ⟨hret, hevents, hkilled⟩ := ih
    have hij : i ≠ j := by
      intro hij
      subst hij
      rw [hret] at hask
      cases hask
    refine ⟨by simpa [put, hij] using hret, fun e he => ?_, by simpa using hkilled⟩
    have hmem : .exchanged i e ∈ tr := by simpa [hij] using he
    exact hevents e hmem
  | @killed tr w' j r k s _ hask _ ih =>
    obtain ⟨hret, hevents, hkilled⟩ := ih
    have hij : i ≠ j := by
      intro hij
      subst hij
      rw [hret] at hask
      cases hask
    exact ⟨by simpa [put, hij] using hret, fun e he => hevents e (by simpa using he), by simpa [hij] using hkilled⟩

/-- What a process has exchanged is an execution of its program, and what is
left of it is what that has become. -/
theorem follows (h : Run exec kill w tr w') (hp : w.prog i = some p) :
    ∃ q, p.Follows (own i tr) q ∧ ∀ p', w'.prog i = some p' → q = p' := by
  induction h with
  | nil => exact ⟨p, .nil, fun p' hp' => Option.some.inj (hp.symm.trans hp')⟩
  | @exchanged tr w' j r k a s _ hask _ ih =>
    obtain ⟨q, hf, hq⟩ := ih
    rw [own_append]
    by_cases hij : j = i
    · subst hij
      obtain rfl := hq _ hask
      rw [own_exchanged_self]
      exact ⟨k a, hf.snoc a, fun p' hp' => by simpa [put] using hp'⟩
    · rw [own_exchanged_other hij, List.append_nil]
      exact ⟨q, hf, fun p' hp' => hq p' (by simpa [put, Ne.symm hij] using hp')⟩
  | @killed tr w' j r k s _ hask _ ih =>
    obtain ⟨q, hf, hq⟩ := ih
    rw [own_append, own_killed, List.append_nil]
    refine ⟨q, hf, fun p' hp' => ?_⟩
    rcases put_prog hp' with ⟨-, hnone⟩ | ⟨-, hp'⟩
    · cases hnone
    · exact hq p' hp'

/-- One process runs alone, from a state that allows it. -/
theorem of_follows {s : σ} {h : List (Event Ans)} {q : Program Req Ans α} (hp : w.prog i = some p) (hf : p.Follows h q)
    (hs : Steps exec w.shared (tagged i h) s) : Run exec kill w (h.map (.exchanged i)) (w.put i (some q) s) := by
  induction h using List.reverseRecOn generalizing q s with
  | nil =>
    obtain rfl := hf.eq_of_nil
    generalize ht : tagged i [] = l at hs
    cases hs with
    | nil =>
      have hw : w.put i (some p) w.shared = w := by rw [put, ← hp, Function.update_eq_self]
      rw [hw]
      exact .nil
    | snoc _ _ => exact absurd ht.symm (List.append_ne_nil_of_right_ne_nil _ (List.cons_ne_nil _ _))
  | append_singleton h e ih =>
    obtain ⟨m, hm, hlast⟩ := hf.split
    generalize ht : tagged i (h ++ [e]) = l at hs
    cases hs with
    | nil => exact absurd ht (by simp [tagged])
    | snoc hs hx =>
      rw [tagged, List.map_append] at ht
      obtain ⟨rfl, hlast'⟩ := List.append_inj' ht rfl
      cases hlast'
      cases hlast with
      | cons hk =>
        obtain rfl := hk.eq_of_nil
        rw [List.map_append]
        have hrun := (ih hm hs).exchanged (Function.update_self ..) hx
        simpa [put] using hrun

/-- **The rely–guarantee rule** of processes. The invariant of the shared
state sees all that has happened; a step of a process may be shown to keep it
with what the process guarantees of its request. -/
theorem invariant {C : ι → Contract Req Ans} {Q : ι → List (Event Ans) → α → Prop} {I : List (Happening ι Ans) → σ → Prop}
    (hI : I [] w.shared) (hp : ∀ i p, w.prog i = some p → p.Meets (C i) (Q i) [])
    (hexchanged : ∀ tr s i r a s', I tr s → .killed i ∉ tr → (C i).guar (own i tr) r → exec i s r a s' →
      (C i).rely (own i tr) r a ∧ I (tr ++ [.exchanged i ⟨r, a⟩]) s')
    (hkilled : ∀ tr s i s', I tr s → .killed i ∉ tr → kill i s s' → I (tr ++ [.killed i]) s')
    (h : Run exec kill w tr w') :
    I tr w'.shared ∧ ∀ i p, w'.prog i = some p → p.Meets (C i) (Q i) (own i tr) := by
  induction h with
  | nil => exact ⟨hI, hp⟩
  | @exchanged tr w' i r k a s hrun hask hx ih =>
    obtain ⟨hinv, hmeets⟩ := ih
    have hi := hmeets i _ hask
    obtain ⟨hrely, hinv'⟩ := hexchanged _ _ _ _ _ _ hinv (hrun.alive hask) hi.1 hx
    refine ⟨hinv', fun j p hj => ?_⟩
    rw [own_append]
    rcases put_prog hj with ⟨rfl, hput⟩ | ⟨hij, hj⟩
    · obtain rfl := Option.some.inj hput
      rw [own_exchanged_self]
      exact hi.2 a hrely
    · rw [own_exchanged_other (Ne.symm hij), List.append_nil]
      exact hmeets j p hj
  | @killed tr w' i r k s hrun hask hx ih =>
    obtain ⟨hinv, hmeets⟩ := ih
    refine ⟨hkilled _ _ _ _ hinv (hrun.alive hask) hx, fun j p hj => ?_⟩
    rw [own_append, own_killed, List.append_nil]
    rcases put_prog hj with ⟨-, hnone⟩ | ⟨-, hj⟩
    · cases hnone
    · exact hmeets j p hj

end Run

end Processes

end Interact
