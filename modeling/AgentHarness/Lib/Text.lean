/-
Text as its UTF-8 bytes, and the character classes and trimming a standard
string library offers.

Lean's `String` is already a valid UTF-8 byte array; here the bytes are a
list, which is what parsers recurse on. A parser that validates the bytes of
a text reads that text (`ofUtf8?_utf8`).
-/
import Mathlib.Data.List.Basic

namespace Text

abbrev Bytes := List UInt8

/-- The bytes of a text. -/
def utf8 (s : String) : Bytes := s.toByteArray.data.toList

/-- The text of some bytes, when they are valid UTF-8. -/
def ofUtf8? (b : Bytes) : Option String := String.fromUTF8? ⟨b.toArray⟩

theorem ofUtf8?_utf8 (s : String) : ofUtf8? (utf8 s) = some s := by
  simp only [ofUtf8?, utf8, Array.toArray_toList]
  rw [String.fromUTF8?, dif_pos s.isValidUTF8]
  rfl

theorem utf8_inj {s t : String} (h : utf8 s = utf8 t) : s = t := by
  have hs := ofUtf8?_utf8 s
  rw [h, ofUtf8?_utf8] at hs
  exact (Option.some.inj hs).symm

theorem ofUtf8?_eq_some {b : Bytes} {s : String} : ofUtf8? b = some s ↔ b = utf8 s := by
  constructor
  · intro h
    unfold ofUtf8? String.fromUTF8? at h
    split at h
    · cases h
      rfl
    · cases h
  · intro heq
    subst heq
    exact ofUtf8?_utf8 s

@[simp] theorem utf8_append (s t : String) : utf8 (s ++ t) = utf8 s ++ utf8 t := by
  simp [utf8, ByteArray.data_append]

@[simp] theorem utf8_length (s : String) : (utf8 s).length = s.utf8ByteSize := by
  rw [utf8, Array.length_toList]; rfl

/-! ## Character classes -/

/-- Unicode `White_Space`. -/
def isWhitespace (c : Char) : Bool :=
  let n := c.toNat
  (9 ≤ n && n ≤ 13) || n == 0x20 || n == 0x85 || n == 0xA0 || n == 0x1680 || (0x2000 ≤ n && n ≤ 0x200A) ||
    n == 0x2028 || n == 0x2029 || n == 0x202F || n == 0x205F || n == 0x3000

/-- General category `Cc`. -/
def isControl (c : Char) : Bool :=
  let n := c.toNat
  n < 0x20 || (0x7F ≤ n && n < 0xA0)

/-- `\u{hex}`, the number in lower case without leading zeros. -/
def escapeUnicode (c : Char) : List Char := ['\\', 'u', '{'] ++ Nat.toDigits 16 c.toNat ++ ['}']

theorem mem_toDigits {base n : Nat} {digit : Char} (hbase : 1 < base) (h : digit ∈ Nat.toDigits base n) :
    ∃ d < base, digit = Nat.digitChar d := by
  induction n using Nat.strongRecOn with
  | ind n ih =>
    by_cases hn : n < base
    · rw [Nat.toDigits_of_lt_base hn, List.mem_singleton] at h
      exact ⟨n, hn, h⟩
    · rw [Nat.toDigits_of_base_le hbase (Nat.not_lt.mp hn), List.mem_append, List.mem_singleton] at h
      obtain h | h := h
      · exact ih (n / base) (Nat.div_lt_self (by omega) hbase) h
      · exact ⟨n % base, Nat.mod_lt _ (by omega), h⟩

/-- Without the white space at either end. -/
def trim (s : String) : String :=
  String.ofList ((s.toList.dropWhile isWhitespace).reverse.dropWhile isWhitespace).reverse

/-- Nothing but white space. -/
def isBlank (s : String) : Bool := (trim s).isEmpty

/-- The parts between the occurrences of a character. -/
def split (c : Char) (s : String) : List String := (s.toList.splitOn c).map String.ofList

end Text
