/-
Sums of machine words that are checked, over any number of words. Adding
twice is adding the sum, and a sum that is checked against a limit that is
itself a word need not be checked against the words.
-/
import AgentHarness.Lib.Except

namespace Word

open Except

universe u

/-- The sum of two words, if there is a word for it. -/
def checkedAdd (words a b : Nat) : Option Nat := if a + b < words then some (a + b) else none

variable {words a b c limit : Nat} {ε : Type u} {α : Type}

theorem checkedAdd_eq_some_iff : checkedAdd words a b = some c ↔ a + b < words ∧ a + b = c := by
  unfold checkedAdd
  split
  · next hfits => simp [hfits]
  · next hlarge => simp [hlarge]

theorem checkedAdd_of_lt (h : a + b < words) : checkedAdd words a b = some (a + b) := checkedAdd_eq_some_iff.mpr ⟨h, rfl⟩

/-- Adding twice, each time checked, is adding the sum. -/
theorem checkedAdd_bind (a b c : Nat) : (checkedAdd words a b).bind (checkedAdd words · c) = checkedAdd words a (b + c) := by
  unfold checkedAdd
  by_cases h : a + b < words
  · simp only [h, if_true, Option.bind_some, Nat.add_assoc]
  · have hsum : ¬a + (b + c) < words := by omega
    simp only [h, if_false, Option.bind_none, hsum]

/-- A sum that is over a limit, or none, is over the limit. -/
theorem checkedAdd_all (h : limit < words) :
    ((checkedAdd words a b).all fun sum => decide (sum > limit)) = decide (a + b > limit) := by
  unfold checkedAdd
  by_cases hfits : a + b < words
  · rw [if_pos hfits, Option.all_some]
  · rw [if_neg hfits, Option.all_none, decide_eq_true (by omega)]

/-- **Checked against a limit**, a sum goes on just when it is within it. -/
theorem checkedAdd_within (h : limit < words) (e : ε) (f : Nat → Except ε α) :
    (okOr (checkedAdd words a b) e >>= fun sum => rejectIf (sum > limit) e >>= fun _ => f sum) =
      if a + b > limit then .error e else f (a + b) := by
  unfold checkedAdd
  by_cases hlarge : a + b > limit
  · rw [if_pos hlarge]
    by_cases hfits : a + b < words
    · rw [if_pos hfits, okOr_some, ok_bind, decide_eq_true hlarge, rejectIf_true, error_bind]
    · rw [if_neg hfits, okOr_none, error_bind]
  · have hfits : a + b < words := by omega
    rw [if_neg hlarge, if_pos hfits, okOr_some, ok_bind, decide_eq_false hlarge, rejectIf_false, ok_bind]

end Word
