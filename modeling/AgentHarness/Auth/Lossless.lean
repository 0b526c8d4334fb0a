/-
The check of a query before it is parsed: its scan comes to an end within the
query, and where it passes, reading the names and values as UTF-8 replaces
nothing, so that what differs in bytes differs as text.
-/
import AgentHarness.Lib.FormBytes
import AgentHarness.Auth.CallbackSpec

namespace AgentHarness.Auth.Callback

open Text

/-! ## The scan -/

/-- What comes of the loop of `query_is_well_formed`. -/
inductive Scanned where
  /-- It is left with what is decoded, or with the query refused. -/
  | returned (decoded : Option Bytes)
  | outOfBounds
  | outOfFuel
  deriving DecidableEq, Repr

/-- The loop, where each round takes fuel, and a byte past the end is not to be had. -/
def scan (bytes : Bytes) : (fuel index : Nat) → (decoded : Bytes) → Scanned
  | 0, _, _ => .outOfFuel
  | fuel + 1, index, decoded =>
    if index < bytes.length then
      match bytes[index]? with
      | none => .outOfBounds
      | some byte =>
        if byte = Form.percent then
          match bytes[index + 1]?.bind hexValue with
          | none => .returned none
          | some high =>
            match bytes[index + 2]?.bind hexValue with
            | none => .returned none
            | some low => scan bytes fuel (index + 3) (decoded ++ [(high <<< 4) ||| low])
        else if byte < 0x80 then scan bytes fuel (index + 1) (decoded ++ [byte])
        else .returned none
    else .returned (some decoded)

/-- **The scan ends** within the query, after a round for each byte that is left, at most, and one. -/
theorem scan_eq {bytes : Bytes} {fuel index : Nat} {decoded : Bytes} (hfuel : bytes.length - index < fuel) :
    scan bytes fuel index decoded = .returned (decodeFrom bytes index decoded) := by
  induction fuel generalizing index decoded with
  | zero => cases hfuel
  | succ fuel ih =>
    rw [scan, decodeFrom]
    by_cases hlt : index < bytes.length
    · have hnext : bytes.length - (index + 1) < fuel := by omega
      have hescape : bytes.length - (index + 3) < fuel := by omega
      rw [if_pos hlt, dif_pos hlt, List.getElem?_eq_getElem hlt]
      by_cases hpercent : bytes[index] = Form.percent
      · simp only [hpercent, if_true]
        cases bytes[index + 1]?.bind hexValue with
        | none => rfl
        | some high =>
          cases bytes[index + 2]?.bind hexValue with
          | none => rfl
          | some low => exact ih hescape
      · simp only [hpercent, if_false]
        split
        · exact ih hnext
        · rfl
    · rw [if_neg hlt, dif_neg hlt]

/-! ## The check -/

theorem queryIsWellFormed_clean {query : String} : queryIsWellFormed query = true ↔
    (∀ b ∈ utf8 query, b < 0x80) ∧ Form.Clean (utf8 query) :=
  queryIsWellFormed_iff

/-- What the slots are filled with has the bytes it has in the query. -/
theorem slots_bytes {query : String} {slots : Slots} (h : queryIsWellFormed query = true)
    (hslots : (Form.parse (utf8 query)).foldlM Slots.place .empty = some slots) :
    ∀ entry ∈ [("state", slots.state), ("code", slots.code), ("error", slots.error)],
      Form.valuesBytes (Form.parseBytes (utf8 query)) (utf8 entry.1) = (entry.2.map utf8).toList := by
  obtain ⟨-, hclean⟩ := queryIsWellFormed_clean.mp h
  obtain ⟨hstate, hcode, herror⟩ := foldlM_place_empty.mp hslots
  simp only [List.forall_mem_cons, ← Form.map_values hclean, hstate, hcode, herror, Option.toList_map]
  simp

/-- **The check makes reading lossless.** It passes exactly the queries in ASCII, with whole escapes, whose names and
values are each valid UTF-8; nothing is then replaced, names and values have the bytes they had, and what has other bytes
is another text. The scan ends within every query. -/
theorem queryIsWellFormed_lossless :
    (∀ query, queryIsWellFormed query = true ↔ (∀ b ∈ utf8 query, b < 0x80) ∧ Form.Escaped (utf8 query) ∧
      ∀ piece ∈ (utf8 query).splitOn 0x26, ValidUtf8 (Form.pairBytes piece).1 ∧ ValidUtf8 (Form.pairBytes piece).2) ∧
    (∀ query, queryIsWellFormed query = true →
      (∀ piece ∈ (utf8 query).splitOn 0x26,
        Form.replaced (Form.pairBytes piece).1 = 0 ∧ Form.replaced (Form.pairBytes piece).2 = 0) ∧
      (Form.parse (utf8 query)).map (Prod.map utf8 utf8) = Form.parseBytes (utf8 query) ∧
      ∀ slots, (Form.parse (utf8 query)).foldlM Slots.place .empty = some slots →
        ∀ entry ∈ [("state", slots.state), ("code", slots.code), ("error", slots.error)],
          Form.valuesBytes (Form.parseBytes (utf8 query)) (utf8 entry.1) = (entry.2.map utf8).toList) ∧
    (∀ query query' name, queryIsWellFormed query = true → queryIsWellFormed query' = true →
      Form.valuesBytes (Form.parseBytes (utf8 query)) (utf8 name) ≠
        Form.valuesBytes (Form.parseBytes (utf8 query')) (utf8 name) →
      Form.values (Form.parse (utf8 query)) name ≠ Form.values (Form.parse (utf8 query')) name) ∧
    ∀ query fuel, (utf8 query).length < fuel →
      scan (utf8 query) fuel 0 [] = .returned (decodeFrom (utf8 query) 0 []) := by
  refine ⟨fun query => ?_, fun query h => ?_, fun query query' name h h' hne heq => ?_, fun query fuel hfuel => scan_eq hfuel⟩
  · rw [queryIsWellFormed_clean, Form.Clean]
    exact and_congr_right fun _ => and_congr_right Form.clean_iff
  · obtain ⟨-, hclean⟩ := queryIsWellFormed_clean.mp h
    refine ⟨fun piece hpiece => ?_, Form.map_parse hclean, fun slots => slots_bytes h⟩
    obtain ⟨hname, hvalue⟩ := hclean.pairBytes hpiece
    exact ⟨Form.replaced_eq_zero.mpr hname, Form.replaced_eq_zero.mpr hvalue⟩
  · obtain ⟨-, hclean⟩ := queryIsWellFormed_clean.mp h
    obtain ⟨-, hclean'⟩ := queryIsWellFormed_clean.mp h'
    rw [← Form.map_values hclean, ← Form.map_values hclean', heq] at hne
    exact hne rfl

/-- The bytes of a character, escaped one by one. -/
theorem queryIsWellFormed_lossless_sample : queryIsWellFormed "state=%C3%A9&code=c+d" = true ∧
    Form.parse (utf8 "state=%C3%A9&code=c+d") = [("state", "é"), ("code", "c d")] ∧
    Form.parseBytes (utf8 "state=%C3%A9&code=c+d") =
      [(utf8 "state", [0xC3, 0xA9]), (utf8 "code", [0x63, 0x20, 0x64])] := by
  have hquery : queryIsWellFormed "state=%C3%A9&code=c+d" = true := by decide +kernel
  have hparse : Form.parse (utf8 "state=%C3%A9&code=c+d") = [("state", "é"), ("code", "c d")] := by decide +kernel
  refine ⟨hquery, hparse, ?_⟩
  rw [← (queryIsWellFormed_lossless.2.1 _ hquery).2.1, hparse]
  decide

/-- A character is not put together over an end of a value. -/
example : queryIsWellFormed "state=%C3&code=%A9" = false := by decide +kernel

end AgentHarness.Auth.Callback
