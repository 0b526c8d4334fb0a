/-
Lists cut into lines by a separator that ends each of them. What is cut off
at any place, with anything but a separator after it, still begins with the
lines that are whole (`take_terminated`).
-/
import Mathlib.Data.List.TakeWhile

namespace Lines

universe u

variable {α : Type u}

/-- Some lines, each ended by a separator. -/
def terminated (sep : α) (ls : List (List α)) : List α := ls.flatMap (· ++ [sep])

/-- The parts of a list that are ended by a separator. -/
def whole [BEq α] (sep : α) (l : List α) : List (List α) := (l.splitOn sep).dropLast

/-- Where the last element with a property is. -/
def rposition (p : α → Bool) (l : List α) : Option Nat := (l.reverse.findIdx? p).map (l.length - 1 - ·)

/-- What is left after the last separator. -/
def afterLast [BEq α] (sep : α) (l : List α) : List α := (l.reverse.takeWhile (· != sep)).reverse

section
variable {sep : α} {l : List α} {ls : List (List α)}

@[simp] theorem terminated_nil : terminated sep [] = [] := rfl

@[simp] theorem terminated_cons : terminated sep (l :: ls) = l ++ sep :: terminated sep ls := by
  simp [terminated]

@[simp] theorem terminated_append (ls ls' : List (List α)) :
    terminated sep (ls ++ ls') = terminated sep ls ++ terminated sep ls' := by
  simp [terminated]

/-- Lines that are not none end in a separator, and are separated before it. -/
theorem terminated_eq_intercalate (h : ls ≠ []) : terminated sep ls = [sep].intercalate ls ++ [sep] := by
  induction ls with
  | nil => exact absurd rfl h
  | cons l ls ih =>
    cases ls with
    | nil => simp [List.intercalate]
    | cons l' ls =>
      rw [terminated_cons, ih (List.cons_ne_nil _ _)]
      simp [List.intercalate, List.intersperse]

/-- What has no separator in it is part of the line that the first one ends. -/
theorem length_le_of_append {front back rest : List α} (hfront : sep ∉ front) (h : front ++ back = l ++ sep :: rest) :
    front.length ≤ l.length := by
  rcases List.append_eq_append_iff.mp h with ⟨between, rfl, -⟩ | ⟨between, rfl, hback⟩
  · simp
  · cases between with
    | nil => simp
    | cons x between =>
      obtain ⟨rfl, -⟩ := List.cons.inj hback
      simp at hfront

/-- The first line and what follows it are determined. -/
theorem append_cons_inj {l' rest rest' : List α} (hl : sep ∉ l) (hl' : sep ∉ l') (h : l ++ sep :: rest = l' ++ sep :: rest') :
    l = l' ∧ rest = rest' := by
  have hlength : l.length = l'.length := Nat.le_antisymm (length_le_of_append hl h) (length_le_of_append hl' h.symm)
  obtain ⟨hline, hrest⟩ := List.append_inj h hlength
  exact ⟨hline, (List.cons.inj hrest).2⟩

/-- Every list is some lines and a rest. -/
theorem exists_terminated [DecidableEq α] (sep : α) (l : List α) :
    ∃ ls rest, l = terminated sep ls ++ rest ∧ (∀ l ∈ ls, sep ∉ l) ∧ sep ∉ rest := by
  induction l with
  | nil => exact ⟨[], [], rfl, by simp, List.not_mem_nil⟩
  | cons x l ih =>
    obtain ⟨ls, rest, rfl, hls, hrest⟩ := ih
    by_cases hx : x = sep
    · subst hx
      exact ⟨[] :: ls, rest, by simp, by simpa using hls, hrest⟩
    · cases ls with
      | nil => exact ⟨[], x :: rest, by simp, by simp, by simp [hrest, Ne.symm hx]⟩
      | cons l' ls =>
        refine ⟨(x :: l') :: ls, rest, by simp, ?_, hrest⟩
        simp only [List.mem_cons, forall_eq_or_imp, not_or] at hls ⊢
        exact ⟨⟨Ne.symm hx, hls.1⟩, hls.2⟩

theorem rposition_append_cons {p : α → Bool} {pre post : List α} {x : α} (hx : p x = true)
    (hpost : ∀ y ∈ post, p y = false) : rposition p (pre ++ x :: post) = some pre.length := by
  have hnone : post.reverse.findIdx? p = none := by
    rw [List.findIdx?_eq_none_iff]
    intro y hy
    exact hpost y (List.mem_reverse.mp hy)
  have hrev : (pre ++ x :: post).reverse = post.reverse ++ x :: pre.reverse := by simp
  rw [rposition, hrev, List.findIdx?_append, hnone, List.findIdx?_cons, hx]
  simp only [if_true, Option.map_some, Option.none_or, Nat.zero_add, List.length_reverse, List.length_append,
    List.length_cons, Option.some.injEq]
  omega

theorem rposition_eq_none {p : α → Bool} (h : ∀ y ∈ l, p y = false) : rposition p l = none := by
  have hnone : l.reverse.findIdx? p = none := by
    rw [List.findIdx?_eq_none_iff]
    intro y hy
    exact h y (List.mem_reverse.mp hy)
  rw [rposition, hnone, Option.map_none]

section
variable [BEq α] [LawfulBEq α]

theorem whole_of_not_mem (h : sep ∉ l) : whole sep l = [] := by
  rw [whole, List.splitOn_eq_singleton h]
  rfl

theorem whole_append_cons (h : sep ∉ l) (rest : List α) : whole sep (l ++ sep :: rest) = l :: whole sep rest := by
  rw [whole, List.splitOn_append_cons_self_of_not_mem h, List.dropLast_cons_of_ne_nil (List.splitOn_ne_nil sep rest)]
  rfl

/-- The last separator of some lines and a rest without one ends the lines. -/
theorem rposition_terminated (h : ls ≠ []) {rest : List α} (hrest : sep ∉ rest) :
    rposition (· == sep) (terminated sep ls ++ rest) = some ([sep].intercalate ls).length := by
  rw [terminated_eq_intercalate h, List.append_assoc, List.singleton_append]
  refine rposition_append_cons (beq_self_eq_true sep) fun y hy => ?_
  rw [beq_eq_false_iff_ne]
  intro heq
  subst heq
  exact hrest hy

theorem afterLast_append_cons (l rest : List α) : afterLast sep (l ++ sep :: rest) = afterLast sep rest := by
  have hrev : (l ++ sep :: rest).reverse = rest.reverse ++ sep :: l.reverse := by simp
  rw [afterLast, afterLast, hrev, List.takeWhile_append, List.takeWhile_cons_of_neg (by simp), List.append_nil]
  split
  · rename_i hall
    rw [(List.takeWhile_prefix _).eq_of_length hall]
  · rfl

theorem afterLast_terminated (ls : List (List α)) {rest : List α} (hrest : sep ∉ rest) :
    afterLast sep (terminated sep ls ++ rest) = rest := by
  have hall : ∀ y ∈ rest.reverse, (y != sep) = true := fun y hy => by
    rw [bne_iff_ne]
    intro heq
    subst heq
    exact hrest (List.mem_reverse.mp hy)
  rw [afterLast]
  rcases List.eq_nil_or_concat ls with rfl | ⟨ls, l, rfl⟩
  · rw [terminated_nil, List.nil_append, List.takeWhile_eq_self_iff.mpr hall, List.reverse_reverse]
  · have hrev : (terminated sep (ls.concat l) ++ rest).reverse =
        rest.reverse ++ sep :: (terminated sep ls ++ l).reverse := by simp [List.concat_eq_append]
    rw [hrev, List.takeWhile_append_of_pos hall, List.takeWhile_cons_of_neg (by simp)]
    simp

end

/-- **A cut leaves whole lines and a rest.** The lines are those that end
before the cut. -/
theorem take_terminated (hls : ∀ l ∈ ls, sep ∉ l) {n : Nat} (hn : n ≤ (terminated sep ls).length) :
    ∃ k rest, k ≤ ls.length ∧ (terminated sep ls).take n = terminated sep (ls.take k) ++ rest ∧ sep ∉ rest ∧
      (terminated sep (ls.take k)).length ≤ n ∧ (k < ls.length → n < (terminated sep (ls.take (k + 1))).length) := by
  induction ls generalizing n with
  | nil => exact ⟨0, [], Nat.le_refl 0, by simp, List.not_mem_nil, Nat.zero_le n, fun h => absurd h (Nat.lt_irrefl 0)⟩
  | cons l ls ih =>
    rw [terminated_cons, List.length_append, List.length_cons] at hn
    by_cases hl : n ≤ l.length
    · refine ⟨0, l.take n, Nat.zero_le _, ?_, ?_, Nat.zero_le n, fun _ => ?_⟩
      · rw [terminated_cons, List.take_append_of_le_length hl, List.take_zero, terminated_nil, List.nil_append]
      · exact fun h => hls l List.mem_cons_self (List.mem_of_mem_take h)
      · simp only [List.take_succ_cons, List.take_zero, terminated_cons, terminated_nil, List.length_append,
          List.length_cons, List.length_nil]
        omega
    · obtain ⟨k, rest, hk, htake, hrest, hle, hlt⟩ :=
        ih (fun l' h => hls l' (List.mem_cons_of_mem l h)) (n := n - (l.length + 1)) (by omega)
      refine ⟨k + 1, rest, Nat.succ_le_succ hk, ?_, hrest, ?_, fun h => ?_⟩
      · obtain ⟨m, rfl⟩ : ∃ m, n = l.length + 1 + m := ⟨n - (l.length + 1), by omega⟩
        have hm : l.length + 1 + m - (l.length + 1) = m := by omega
        rw [hm] at htake
        rw [terminated_cons, List.take_succ_cons, terminated_cons, List.append_assoc, List.cons_append, ← htake,
          Nat.add_assoc, List.take_length_add_append, Nat.add_comm 1 m, List.take_succ_cons]
      · simp only [List.take_succ_cons, terminated_cons, List.length_append, List.length_cons]
        omega
      · have hlt' := hlt (by simpa using h)
        simp only [List.take_succ_cons, terminated_cons, List.length_append, List.length_cons] at hlt' ⊢
        omega

end

end Lines
