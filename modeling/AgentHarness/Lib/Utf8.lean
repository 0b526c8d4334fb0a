/-
UTF-8 as the encodings of characters, one after the other. An ASCII byte is a
character of its own wherever it stands, so bytes around one are valid when
both sides are (`validUtf8_around`).
-/
import Mathlib.Algebra.GroupWithZero.Nat
import AgentHarness.Lib.Text

namespace Text

/-! ## Characters and their bytes -/

theorem utf8_ofList (cs : List Char) : utf8 (String.ofList cs) = cs.flatMap String.utf8EncodeChar := by
  rw [utf8, String.toByteArray_ofList, List.utf8Encode, List.toList_data_toByteArray]

theorem utf8_eq_flatMap (s : String) : utf8 s = s.toList.flatMap String.utf8EncodeChar := by
  rw [← utf8_ofList, String.ofList_toList]

/-- A text is as long as its characters are together. -/
theorem utf8ByteSize_ofList (cs : List Char) : (String.ofList cs).utf8ByteSize = (cs.map Char.utf8Size).sum := by
  rw [← utf8_length, utf8_ofList, List.length_flatMap]
  simp

theorem not_or_lt {x mask : UInt8} (h : 0x80 ≤ mask) : ¬x ||| mask < 0x80 := by
  have hle : mask.toNat ≤ x.toNat ||| mask.toNat := Nat.right_le_or
  rw [UInt8.le_iff_toNat_le] at h
  rw [UInt8.lt_iff_toNat_lt, UInt8.toNat_or]
  exact Nat.not_lt.mpr (Nat.le_trans h hle)

/-- No byte of a character that takes more than one is ASCII. -/
theorem encode_of_ascii {c : Char} {b : UInt8} (hb : b ∈ String.utf8EncodeChar c) (hascii : b < 0x80) :
    c.utf8Size = 1 ∧ String.utf8EncodeChar c = [b] := by
  obtain hsize | hsize | hsize | hsize := Char.utf8Size_eq c
  · rw [String.utf8EncodeChar_eq_singleton hsize, List.mem_singleton] at hb
    subst hb
    exact ⟨hsize, String.utf8EncodeChar_eq_singleton hsize⟩
  · rw [String.utf8EncodeChar_eq_cons_cons hsize] at hb
    simp only [List.mem_cons, List.not_mem_nil, or_false] at hb
    obtain rfl | rfl := hb
    · exact absurd hascii (not_or_lt (by decide))
    · exact absurd hascii (not_or_lt (by decide))
  · rw [String.utf8EncodeChar_eq_cons_cons_cons hsize] at hb
    simp only [List.mem_cons, List.not_mem_nil, or_false] at hb
    obtain rfl | rfl | rfl := hb
    · exact absurd hascii (not_or_lt (by decide))
    · exact absurd hascii (not_or_lt (by decide))
    · exact absurd hascii (not_or_lt (by decide))
  · rw [String.utf8EncodeChar_eq_cons_cons_cons_cons hsize] at hb
    simp only [List.mem_cons, List.not_mem_nil, or_false] at hb
    obtain rfl | rfl | rfl | rfl := hb
    · exact absurd hascii (not_or_lt (by decide))
    · exact absurd hascii (not_or_lt (by decide))
    · exact absurd hascii (not_or_lt (by decide))
    · exact absurd hascii (not_or_lt (by decide))

theorem toNat_of_ascii {c : Char} {b : UInt8} (hb : b ∈ String.utf8EncodeChar c) (hascii : b < 0x80) :
    c.toNat = b.toNat := by
  obtain ⟨hsize, hencode⟩ := encode_of_ascii hb hascii
  rw [String.utf8EncodeChar_eq_singleton hsize, List.cons.injEq] at hencode
  have hle := UInt32.le_iff_toNat_le.mp (Char.utf8Size_eq_one_iff.mp hsize)
  rw [← hencode.1, UInt32.toNat_toUInt8]
  exact (Nat.mod_eq_of_lt (Nat.lt_of_le_of_lt hle (by decide))).symm

/-- The characters of a text of ASCII bytes are those bytes. -/
theorem mem_toList_of_ascii {s : String} (h : ∀ b ∈ utf8 s, b < 0x80) {c : Char} (hc : c ∈ s.toList) :
    ∃ b ∈ utf8 s, c.toNat = b.toNat := by
  have hne : String.utf8EncodeChar c ≠ [] := by
    rw [← List.length_pos_iff, String.length_utf8EncodeChar]
    exact c.utf8Size_pos
  obtain ⟨b, hb⟩ := List.exists_mem_of_ne_nil _ hne
  have hmem : b ∈ utf8 s := by
    rw [utf8_eq_flatMap]
    exact List.mem_flatMap_of_mem hc hb
  exact ⟨b, hmem, toNat_of_ascii hb (h b hmem)⟩

/-- ASCII characters are one byte each. -/
theorem utf8_of_ascii {s : String} (h : ∀ c ∈ s.toList, c.toNat < 128) :
    utf8 s = s.toList.map fun c => UInt8.ofNat c.toNat := by
  rw [utf8_eq_flatMap]
  generalize s.toList = cs at h
  induction cs with
  | nil => rfl
  | cons c cs ih =>
    have hone : c.utf8Size = 1 :=
      Char.utf8Size_eq_one_iff.mpr (UInt32.le_iff_toNat_le.mpr (Nat.le_of_lt_succ (h c List.mem_cons_self)))
    rw [List.flatMap_cons, List.map_cons, String.utf8EncodeChar_eq_singleton hone,
      ih fun c hc => h c (List.mem_cons_of_mem _ hc)]
    rfl

/-! ## Validity -/

/-- Bytes that are a text's. -/
def ValidUtf8 (b : Bytes) : Prop := (ofUtf8? b).isSome = true

theorem validUtf8_iff {b : Bytes} : ValidUtf8 b ↔ ∃ cs : List Char, b = cs.flatMap String.utf8EncodeChar := by
  rw [ValidUtf8, Option.isSome_iff_exists]
  constructor
  · intro h
    obtain ⟨s, hs⟩ := h
    exact ⟨s.toList, by rw [ofUtf8?_eq_some.mp hs, utf8_eq_flatMap]⟩
  · intro h
    obtain ⟨cs, hcs⟩ := h
    exact ⟨String.ofList cs, ofUtf8?_eq_some.mpr (by rw [hcs, utf8_ofList])⟩

theorem validUtf8_append {a b : Bytes} (ha : ValidUtf8 a) (hb : ValidUtf8 b) : ValidUtf8 (a ++ b) := by
  obtain ⟨cs, rfl⟩ := validUtf8_iff.mp ha
  obtain ⟨ds, rfl⟩ := validUtf8_iff.mp hb
  exact validUtf8_iff.mpr ⟨cs ++ ds, List.flatMap_append.symm⟩

theorem validUtf8_ascii {x : UInt8} (h : x < 0x80) : ValidUtf8 [x] := by
  have hall : ∀ n : Fin 128, String.utf8EncodeChar (Char.ofNat n.val) = [UInt8.ofNat n.val] := by decide
  have hx := hall ⟨x.toNat, h⟩
  rw [UInt8.ofNat_toNat] at hx
  exact validUtf8_iff.mpr ⟨[Char.ofNat x.toNat], by rw [List.flatMap_singleton, hx]⟩

/-- **An ASCII byte parts valid bytes** from valid bytes. -/
theorem validUtf8_around {x : UInt8} (h : x < 0x80) {a b : Bytes} : ValidUtf8 (a ++ x :: b) ↔ ValidUtf8 a ∧ ValidUtf8 b := by
  constructor
  · intro hvalid
    obtain ⟨cs, hcs⟩ := validUtf8_iff.mp hvalid
    clear hvalid
    induction cs generalizing a with
    | nil => simp at hcs
    | cons c cs ih =>
      rw [List.flatMap_cons] at hcs
      obtain ⟨rest, hc, hrest⟩ | ⟨a', rfl, hrest⟩ := List.append_eq_append_iff.mp hcs
      · cases rest with
        | nil =>
          rw [List.append_nil] at hc
          rw [List.nil_append] at hrest
          obtain ⟨-, hb⟩ := ih (a := []) hrest
          exact ⟨validUtf8_iff.mpr ⟨[c], by rw [List.flatMap_singleton, hc]⟩, hb⟩
        | cons y rest =>
          -- the byte is in the character, which is that byte
          obtain ⟨rfl, rfl⟩ := List.cons.inj hrest
          obtain ⟨-, hone⟩ := encode_of_ascii (by rw [hc]; simp) h
          rw [hc] at hone
          obtain ⟨rfl, rfl⟩ : a = [] ∧ rest = [] := by simpa [List.append_eq_cons_iff] using hone
          exact ⟨validUtf8_iff.mpr ⟨[], rfl⟩, validUtf8_iff.mpr ⟨cs, rfl⟩⟩
      · obtain ⟨ha', hb⟩ := ih hrest.symm
        exact ⟨validUtf8_append (validUtf8_iff.mpr ⟨[c], by rw [List.flatMap_singleton]⟩) ha', hb⟩
  · intro hvalid
    exact validUtf8_append hvalid.1 (validUtf8_append (validUtf8_ascii h) hvalid.2)

end Text
