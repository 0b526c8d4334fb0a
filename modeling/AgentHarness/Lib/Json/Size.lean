/-
How long a written value can get: a byte of a string takes at most six, an
integer of 64 bits at most 21, and everything else is as long as it is.
-/
import AgentHarness.Lib.Json.Derive
import AgentHarness.Lib.Json.Render

namespace Json

open Text

/-! ## Strings and numbers -/

theorem length_escapeByte_le (b : UInt8) : (escapeByte b).length ≤ 6 := by
  unfold escapeByte
  split_ifs <;> simp

theorem length_escaped_le (bs : Bytes) : (bs.flatMap escapeByte).length ≤ 6 * bs.length := by
  induction bs with
  | nil => simp
  | cons b bs ih =>
    have hb := length_escapeByte_le b
    rw [List.flatMap_cons, List.length_append, List.length_cons]
    omega

/-- **A string takes at most six bytes for each of its own**, and its quotes. -/
theorem length_renderString_le (s : String) : (renderString s).length ≤ 6 * s.utf8ByteSize + 2 := by
  have h := length_escaped_le (utf8 s)
  rw [utf8_length] at h
  simp only [renderString, List.length_cons, List.length_append, List.length_nil]
  omega

theorem length_digits_le (n : UInt64) : (digits n.toNat).length ≤ 20 := by
  have hn : n.toNat < 18446744073709551616 := n.toNat_lt
  rw [digits, List.length_map, Nat.length_toDigits_le_iff (by decide) (by decide)]
  omega

/-! ## Values -/

def Number.maxLength : Number → Nat
  | .posInt _ => 20
  | .negInt _ => 21
  | n@(.float ..) => n.render.length

mutual

/-- As many bytes as a value of this shape can take. -/
def maxLength : Json → Nat
  | .null => 4
  | .bool _ => 5
  | .num n => n.maxLength
  | .str s => 6 * s.utf8ByteSize + 2
  | .arr vs => maxLengthItems vs + 2
  | .obj ms => maxLengthMembers ms + 2

def maxLengthItems : List Json → Nat
  | [] => 0
  | v :: vs => maxLength v + 1 + maxLengthItems vs

def maxLengthMembers : List (String × Json) → Nat
  | [] => 0
  | (k, v) :: ms => 6 * k.utf8ByteSize + 2 + 1 + maxLength v + 1 + maxLengthMembers ms

end

theorem Number.length_render_le (n : Number) : n.render.length ≤ n.maxLength := by
  cases n with
  | posInt n => exact length_digits_le n
  | negInt m => exact Nat.succ_le_succ (length_digits_le m)
  | float negative ds exponent => exact Nat.le_refl _

mutual

/-- **No value is written longer** than its shape allows. -/
theorem length_render_le (v : Json) : (render v).length ≤ maxLength v := by
  cases v with
  | null => exact Nat.le_refl _
  | bool b => cases b <;> decide
  | num n => exact n.length_render_le
  | str s => exact length_renderString_le s
  | arr vs =>
    cases vs with
    | nil => exact Nat.le_refl _
    | cons v vs =>
      have hv := length_render_le v
      have hvs := length_renderItems_le vs
      simp only [render, maxLength, maxLengthItems, List.length_cons, List.length_append]
      omega
  | obj ms =>
    cases ms with
    | nil => exact Nat.le_refl _
    | cons m ms =>
      obtain ⟨k, v⟩ := m
      have hk := length_renderString_le k
      have hv := length_render_le v
      have hms := length_renderMembers_le ms
      simp only [render, maxLength, maxLengthMembers, List.length_cons, List.length_append]
      omega

theorem length_renderItems_le (vs : List Json) : (renderItems vs).length ≤ maxLengthItems vs + 1 := by
  cases vs with
  | nil => exact Nat.le_refl _
  | cons v vs =>
    have hv := length_render_le v
    have hvs := length_renderItems_le vs
    simp only [renderItems, maxLengthItems, List.length_cons, List.length_append]
    omega

theorem length_renderMembers_le (ms : List (String × Json)) :
    (renderMembers ms).length ≤ maxLengthMembers ms + 1 := by
  cases ms with
  | nil => exact Nat.le_refl _
  | cons m ms =>
    obtain ⟨k, v⟩ := m
    have hk := length_renderString_le k
    have hv := length_render_le v
    have hms := length_renderMembers_le ms
    simp only [renderMembers, maxLengthMembers, List.length_cons, List.length_append]
    omega

end

/-! ## Records and unions -/

/-- As many bytes as some names can take, with their colons. -/
def maxLengthKeys : List String → Nat
  | [] => 0
  | name :: names => 6 * name.utf8ByteSize + 3 + maxLengthKeys names

theorem maxLengthMembers_zip {names : List String} {values : List Json} (h : names.length = values.length) :
    maxLengthMembers (names.zip values) = maxLengthKeys names + maxLengthItems values := by
  induction names generalizing values with
  | nil =>
    cases values with
    | nil => rfl
    | cons v vs => cases h
  | cons name names ih =>
    cases values with
    | nil => cases h
    | cons v vs =>
      have hrest := ih (Nat.succ.inj h)
      simp only [List.zip_cons_cons, maxLengthMembers, maxLengthKeys, maxLengthItems]
      omega

/-- A variant takes its names, those of the tag and its own, and its values. -/
theorem maxLength_ofTagged {tag variant : String} {names : List String} {values : List Json}
    (h : names.length = values.length) :
    maxLength (ofTagged tag variant names values) =
      maxLengthKeys (tag :: names) + maxLengthItems (.str variant :: values) + 2 := by
  have hrest := maxLengthMembers_zip h
  simp only [ofTagged, maxLength, maxLengthMembers, maxLengthKeys, maxLengthItems]
  omega

end Json
