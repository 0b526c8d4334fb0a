/-
Bytes cut into lines that keep their ends: a line feed, a carriage return, or
one and then the other. The lines are the only ones that are each ended once
but perhaps for the last, none of them between a carriage return and a line
feed (`splitLines_flatten`).
-/
import Mathlib.Logic.Basic

namespace LineEnds

def lf : UInt8 := 0x0a
def cr : UInt8 := 0x0d

/-- The lines, after what has been read of the first. -/
def splitFrom (line : List UInt8) : List UInt8 → List (List UInt8)
  | [] => if line.isEmpty then [] else [line]
  | b :: bytes =>
    -- A carriage return before a line feed ends nothing by itself.
    if b = lf ∨ b = cr ∧ bytes.head? ≠ some lf then (line ++ [b]) :: splitFrom [] bytes
    else splitFrom (line ++ [b]) bytes

def splitLines (bytes : List UInt8) : List (List UInt8) := splitFrom [] bytes

/-! ## Lines -/

/-- Nothing here ends a line. -/
def Plain (line : List UInt8) : Prop := ∀ b ∈ line, b ≠ lf ∧ b ≠ cr

inductive IsEnd : List UInt8 → Prop
  | lf : IsEnd [lf]
  | cr : IsEnd [cr]
  | crLf : IsEnd [cr, LineEnds.lf]

/-- A line with its end. -/
def Whole (line : List UInt8) : Prop := ∃ front ending, line = front ++ ending ∧ Plain front ∧ IsEnd ending

/-- The line's end is not half of the one it makes with these bytes. -/
def Parted (line bytes : List UInt8) : Prop := line.getLast? = some cr → bytes.head? ≠ some lf

/-- Lines as they are cut. -/
inductive Cut : List (List UInt8) → Prop
  | nil : Cut []
  | last {line} : line ≠ [] → Plain line → Cut [line]
  | cons {line lines} : Whole line → Parted line lines.flatten → Cut lines → Cut (line :: lines)

section
variable {line line' bytes : List UInt8} {lines lines' : List (List UInt8)}

@[simp] theorem plain_nil : Plain [] := fun b hb => by cases hb

@[simp] theorem plain_append : Plain (line ++ line') ↔ Plain line ∧ Plain line' := List.forall_mem_append

theorem plain_singleton {b : UInt8} : Plain [b] ↔ b ≠ lf ∧ b ≠ cr := by
  simp [Plain]

theorem IsEnd.ne_nil (h : IsEnd line) : line ≠ [] := by
  cases h <;> simp

theorem Whole.ne_nil (h : Whole line) : line ≠ [] := by
  obtain ⟨front, ending, rfl, -, hending⟩ := h
  simp [hending.ne_nil]

/-- What a line ends in is no other byte of it. -/
theorem Whole.not_plain (h : Whole line) : ¬Plain line := by
  obtain ⟨front, ending, rfl, -, hending⟩ := h
  intro hplain
  have hend := (plain_append.mp hplain).2
  cases hending with
  | lf => exact (plain_singleton.mp hend).1 rfl
  | cr => exact (plain_singleton.mp hend).2 rfl
  | crLf => exact (hend cr List.mem_cons_self).2 rfl

theorem Whole.prepend (h : Whole line) (hplain : Plain line') : Whole (line' ++ line) := by
  obtain ⟨front, ending, rfl, hfront, hending⟩ := h
  exact ⟨line' ++ front, ending, (List.append_assoc ..).symm, plain_append.mpr ⟨hplain, hfront⟩, hending⟩

/-! ## Cutting -/

theorem splitFrom_plain (h : Plain line') (line bytes : List UInt8) :
    splitFrom line (line' ++ bytes) = splitFrom (line ++ line') bytes := by
  induction line' generalizing line with
  | nil => rw [List.append_nil, List.nil_append]
  | cons b line' ih =>
    obtain ⟨hlf, hcr⟩ := h b List.mem_cons_self
    have hno : ¬(b = lf ∨ b = cr ∧ (line' ++ bytes).head? ≠ some lf) := by simp [hlf, hcr]
    rw [List.cons_append, splitFrom, if_neg hno, ih fun b hb => h b (List.mem_cons_of_mem _ hb), List.append_assoc,
      List.singleton_append]

theorem splitFrom_end (h : IsEnd line') (hparted : Parted line' bytes) (line : List UInt8) :
    splitFrom line (line' ++ bytes) = (line ++ line') :: splitLines bytes := by
  cases h with
  | lf => simp [splitFrom, splitLines]
  | cr =>
    have hnext : bytes.head? ≠ some lf := hparted rfl
    have hyes : cr = lf ∨ cr = cr ∧ bytes.head? ≠ some lf := .inr ⟨rfl, hnext⟩
    rw [List.singleton_append, splitFrom, if_pos hyes]
    rfl
  | crLf =>
    have hno : ¬(cr = lf ∨ cr = cr ∧ (lf :: bytes).head? ≠ some lf) := by
      simp
      decide
    have hcons : [cr, lf] ++ bytes = cr :: lf :: bytes := rfl
    rw [hcons, splitFrom, if_neg hno, splitFrom, if_pos (.inl rfl), List.append_assoc]
    rfl

/-- The first line is cut off. -/
theorem splitLines_cons (h : Whole line) (hparted : Parted line bytes) :
    splitLines (line ++ bytes) = line :: splitLines bytes := by
  obtain ⟨front, ending, rfl, hplain, hending⟩ := h
  have hend : Parted ending bytes := by
    intro hlast
    refine hparted ?_
    rw [List.getLast?_append, hlast]
    rfl
  rw [splitLines, List.append_assoc, splitFrom_plain hplain, splitFrom_end hending hend, List.nil_append]

theorem splitLines_plain (h : Plain line) (hne : line ≠ []) : splitLines line = [line] := by
  have hsplit := splitFrom_plain h [] []
  rw [List.append_nil, List.nil_append] at hsplit
  rw [splitLines, hsplit, splitFrom, if_neg (by simpa using hne)]

/-- **Lines that may have been cut are the ones that are cut.** -/
theorem splitLines_flatten (h : Cut lines) : splitLines lines.flatten = lines := by
  induction h with
  | nil => rfl
  | last hne hplain => simpa using splitLines_plain hplain hne
  | cons hwhole hparted _ ih => rw [List.flatten_cons, splitLines_cons hwhole hparted, ih]

/-- Where the first line ends. -/
theorem exists_line (bytes : List UInt8) :
    Plain bytes ∨ ∃ line rest, bytes = line ++ rest ∧ Whole line ∧ Parted line rest := by
  induction bytes with
  | nil => exact .inl plain_nil
  | cons b bytes ih =>
    by_cases hlf : b = lf
    · subst hlf
      refine .inr ⟨[lf], bytes, rfl, ⟨[], [lf], rfl, plain_nil, .lf⟩, fun h => ?_⟩
      simp [lf, cr] at h
    by_cases hcr : b = cr
    · subst hcr
      by_cases hnext : bytes.head? = some lf
      · obtain ⟨rest, rfl⟩ : ∃ rest, bytes = lf :: rest := by
          cases bytes with
          | nil => cases hnext
          | cons c rest => exact ⟨rest, by rw [Option.some.inj hnext]⟩
        refine .inr ⟨[cr, lf], rest, rfl, ⟨[], [cr, lf], rfl, plain_nil, .crLf⟩, fun h => ?_⟩
        simp [lf, cr] at h
      · exact .inr ⟨[cr], bytes, rfl, ⟨[], [cr], rfl, plain_nil, .cr⟩, fun _ => hnext⟩
    have hb : Plain [b] := plain_singleton.mpr ⟨hlf, hcr⟩
    rcases ih with hplain | ⟨line, rest, rfl, hwhole, hparted⟩
    · exact .inl (plain_append.mpr ⟨hb, hplain⟩)
    · refine .inr ⟨b :: line, rest, rfl, hwhole.prepend hb, fun h => hparted ?_⟩
      obtain ⟨c, line', rfl⟩ := List.exists_cons_of_ne_nil hwhole.ne_nil
      simpa using h

/-- All bytes are lines. -/
theorem exists_cut (bytes : List UInt8) : ∃ lines, Cut lines ∧ lines.flatten = bytes := by
  induction hn : bytes.length using Nat.strongRecOn generalizing bytes with
  | ind n ih =>
    subst hn
    rcases exists_line bytes with hplain | ⟨line, rest, rfl, hwhole, hparted⟩
    · by_cases hne : bytes = []
      · exact ⟨[], .nil, hne.symm⟩
      · exact ⟨[bytes], .last hne hplain, by simp⟩
    · have hshort : rest.length < (line ++ rest).length := by
        have hpos := List.length_pos_iff.mpr hwhole.ne_nil
        rw [List.length_append]
        omega
      obtain ⟨lines, hcut, rfl⟩ := ih _ hshort rest rfl
      exact ⟨line :: lines, .cons hwhole hparted hcut, rfl⟩

theorem cut_splitLines (bytes : List UInt8) : Cut (splitLines bytes) := by
  obtain ⟨lines, hcut, rfl⟩ := exists_cut bytes
  rw [splitLines_flatten hcut]
  exact hcut

theorem flatten_splitLines (bytes : List UInt8) : (splitLines bytes).flatten = bytes := by
  obtain ⟨lines, hcut, rfl⟩ := exists_cut bytes
  rw [splitLines_flatten hcut]

/-! ## Lines after lines -/

theorem cut_cons : Cut (line :: lines) ↔
    (lines = [] ∧ line ≠ [] ∧ Plain line) ∨ Whole line ∧ Parted line lines.flatten ∧ Cut lines := by
  constructor
  · intro h
    cases h with
    | last hne hplain => exact .inl ⟨rfl, hne, hplain⟩
    | cons hwhole hparted h => exact .inr ⟨hwhole, hparted, h⟩
  · intro h
    rcases h with ⟨rfl, hne, hplain⟩ | ⟨hwhole, hparted, h⟩
    · exact .last hne hplain
    · exact .cons hwhole hparted h

theorem Cut.right (h : Cut (lines ++ lines')) : Cut lines' := by
  induction lines with
  | nil => exact h
  | cons line lines ih =>
    rcases cut_cons.mp h with ⟨hnil, -, -⟩ | ⟨-, -, h⟩
    · rw [(List.append_eq_nil_iff.mp hnil).2]
      exact .nil
    · exact ih h

theorem Cut.left (h : Cut (lines ++ lines')) : Cut lines := by
  induction lines with
  | nil => exact .nil
  | cons line lines ih =>
    rcases cut_cons.mp h with ⟨hnil, hne, hplain⟩ | ⟨hwhole, hparted, h⟩
    · rw [(List.append_eq_nil_iff.mp hnil).1]
      exact .last hne hplain
    · refine .cons hwhole (fun hcr hhead => hparted hcr ?_) (ih h)
      have hflatten : (lines.append lines').flatten = lines.flatten ++ lines'.flatten := List.flatten_append
      rw [hflatten, List.head?_append, hhead]
      rfl

/-- Only the last line may have no end. -/
theorem Cut.whole (h : Cut (lines ++ lines')) (hne : lines' ≠ []) (hmem : line ∈ lines) : Whole line := by
  induction lines with
  | nil => cases hmem
  | cons line' lines ih =>
    rcases cut_cons.mp h with ⟨hnil, -, -⟩ | ⟨hwhole, -, h⟩
    · exact absurd (List.append_eq_nil_iff.mp hnil).2 hne
    · rcases List.mem_cons.mp hmem with rfl | hmem
      · exact hwhole
      · exact ih h hmem

theorem Cut.append (h : Cut lines) (hwhole : ∀ line ∈ lines, Whole line) (h' : Cut lines')
    (hhead : lines'.flatten.head? ≠ some lf) : Cut (lines ++ lines') := by
  induction h with
  | nil => exact h'
  | last hne hplain => exact absurd hplain (hwhole _ List.mem_cons_self).not_plain
  | @cons line lines hw hparted _ ih =>
    refine .cons hw (fun hcr hlf => ?_) (ih fun l hl => hwhole l (List.mem_cons_of_mem _ hl))
    have hflatten : (lines.append lines').flatten = lines.flatten ++ lines'.flatten := List.flatten_append
    rw [hflatten, List.head?_append] at hlf
    cases hfirst : lines.flatten.head? with
    | none =>
      rw [hfirst] at hlf
      exact hhead hlf
    | some b =>
      rw [hfirst] at hlf
      exact hparted hcr (hfirst.trans hlf)

/-- A line has its end, or none. -/
theorem Cut.whole_or_plain (h : Cut lines) (hmem : line ∈ lines) : Whole line ∨ line ≠ [] ∧ Plain line := by
  induction h with
  | nil => cases hmem
  | last hne hplain =>
    rw [List.mem_singleton.mp hmem]
    exact .inr ⟨hne, hplain⟩
  | cons hwhole _ _ ih =>
    rcases List.mem_cons.mp hmem with rfl | hmem
    · exact .inl hwhole
    · exact ih hmem

/-- Nothing that a line has before it changes its end. -/
theorem Cut.prepend (h : Cut (line :: lines)) (hwhole : Whole line) (hplain : Plain line') :
    Cut ((line' ++ line) :: lines) := by
  rcases cut_cons.mp h with ⟨-, -, hno⟩ | ⟨-, hparted, hcut⟩
  · exact absurd hno hwhole.not_plain
  · refine .cons (hwhole.prepend hplain) (fun hcr => hparted ?_) hcut
    rw [List.getLast?_append] at hcr
    cases hlast : line.getLast? with
    | none => exact absurd (List.getLast?_eq_none_iff.mp hlast) hwhole.ne_nil
    | some b => simpa [hlast] using hcr

/-- The last byte of a line with its end. -/
theorem Whole.getLast? (h : Whole line) : line.getLast? = some lf ∨ line.getLast? = some cr := by
  obtain ⟨front, ending, rfl, -, hending⟩ := h
  cases hending <;> simp

theorem Plain.getLast? (h : Plain line) : line.getLast? ≠ some lf ∧ line.getLast? ≠ some cr :=
  ⟨fun hlast => (h lf (List.mem_of_getLast? hlast)).1 rfl, fun hlast => (h cr (List.mem_of_getLast? hlast)).2 rfl⟩

end

end LineEnds
