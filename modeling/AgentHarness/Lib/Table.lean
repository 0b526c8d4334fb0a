/-
Tables as text: fields with a separator between them, rows with a mark after
each. A table is read back by cutting at the marks and then at the
separators, as long as no field has one of either in it.
-/
import Mathlib.Data.List.Induction

namespace Table

variable {α : Type} {mark separator : α}

def row (mark separator : α) (fields : List (List α)) : List α := [separator].intercalate fields ++ [mark]

def text (mark separator : α) (rows : List (List (List α))) : List α := rows.flatMap (row mark separator)

/-- What is after the last mark is no row. -/
def read [DecidableEq α] (mark separator : α) (text : List α) : List (List (List α)) :=
  (text.splitOn mark).dropLast.map (List.splitOn separator)

theorem not_mem_intercalate {fields : List (List α)} (hne : mark ≠ separator) (h : ∀ field ∈ fields, mark ∉ field) :
    mark ∉ [separator].intercalate fields := by
  induction fields with
  | nil => exact List.not_mem_nil
  | cons field fields ih =>
    have hfield := h field List.mem_cons_self
    have hfields := ih fun field hmem => h field (List.mem_cons_of_mem _ hmem)
    cases fields with
    | nil => simpa using hfield
    | cons next fields =>
      rw [List.intercalate_cons_cons]
      simp only [List.mem_append, List.mem_singleton, not_or]
      exact ⟨⟨hfield, hne⟩, hfields⟩

variable [DecidableEq α]

theorem read_nil : read mark separator [] = [] := by
  simp [read]

theorem read_row {fields : List (List α)} (hne : mark ≠ separator) (hfields : fields ≠ [])
    (h : ∀ field ∈ fields, mark ∉ field ∧ separator ∉ field) (rest : List α) :
    read mark separator (row mark separator fields ++ rest) = fields :: read mark separator rest := by
  have hmark := not_mem_intercalate hne fun field hmem => (h field hmem).1
  rw [read, row, List.append_assoc, List.singleton_append, List.splitOn_append_cons_self_of_not_mem hmark,
    List.dropLast_cons_of_ne_nil (List.splitOn_ne_nil mark rest), List.map_cons,
    List.splitOn_intercalate separator (fun field hmem => (h field hmem).2) hfields, read]

/-- **A table is read back.** -/
theorem read_text {rows : List (List (List α))} (hne : mark ≠ separator)
    (h : ∀ fields ∈ rows, fields ≠ [] ∧ ∀ field ∈ fields, mark ∉ field ∧ separator ∉ field) :
    read mark separator (text mark separator rows) = rows := by
  induction rows with
  | nil => exact read_nil
  | cons fields rows ih =>
    obtain ⟨hfields, hmem⟩ := h fields List.mem_cons_self
    rw [text, List.flatMap_cons, read_row hne hfields hmem]
    exact congrArg (fields :: ·) (ih fun fields hfields => h fields (List.mem_cons_of_mem _ hfields))

end Table
