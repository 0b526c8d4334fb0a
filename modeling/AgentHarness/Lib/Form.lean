/-
Names and values in a query (`application/x-www-form-urlencoded`): the
pieces between `&`, each cut at its first `=`, with `+` for a space, escapes
of a byte, and UTF-8 that is read as far as it is valid.
-/
import AgentHarness.Lib.Text

namespace Form

open Text

/-! ## Escapes -/

def percent : UInt8 := 0x25

def hexDigit? (byte : UInt8) : Option UInt8 :=
  if 0x30 ≤ byte ∧ byte ≤ 0x39 then some (byte - 0x30)
  else if 0x61 ≤ byte ∧ byte ≤ 0x66 then some (byte - 0x61 + 10)
  else if 0x41 ≤ byte ∧ byte ≤ 0x46 then some (byte - 0x41 + 10)
  else none

/-- Every escape is the byte it is of; a `%` that begins none stands for itself. -/
def percentDecode : Bytes → Bytes
  | [] => []
  | [a] => [a]
  | [a, b] => [a, b]
  | a :: b :: c :: rest =>
    if a = percent then
      match hexDigit? b, hexDigit? c with
      | some high, some low => (high * 16 + low) :: percentDecode rest
      | _, _ => a :: percentDecode (b :: c :: rest)
    else a :: percentDecode (b :: c :: rest)

/-- Every `%` is followed by two hexadecimal digits. -/
def Escaped (query : Bytes) : Prop :=
  ∀ i, query[i]? = some percent →
    (∃ high ∈ query[i + 1]?, (hexDigit? high).isSome = true) ∧ ∃ low ∈ query[i + 2]?, (hexDigit? low).isSome = true

/-! ## UTF-8 that may be invalid -/

/-- The character that some bytes begin with. -/
def decodeChar? (b : Bytes) : Option Char := ByteArray.utf8DecodeChar? ⟨b.toArray⟩ 0

/-- A second byte that can follow the first of three or four. -/
def isSecond (first second : UInt8) : Bool :=
  (first == 0xE0 && 0xA0 ≤ second && second ≤ 0xBF) || (first == 0xED && 0x80 ≤ second && second ≤ 0x9F) ||
    (0xE1 ≤ first && first ≤ 0xEF && first != 0xED && 0x80 ≤ second && second ≤ 0xBF) ||
    (first == 0xF0 && 0x90 ≤ second && second ≤ 0xBF) || (first == 0xF4 && 0x80 ≤ second && second ≤ 0x8F) ||
    (0xF1 ≤ first && first ≤ 0xF3 && 0x80 ≤ second && second ≤ 0xBF)

/-- How many bytes are replaced by one character, of bytes that begin with none. -/
def invalidLength : Bytes → Nat
  | first :: second :: rest =>
    if isSecond first second then
      match rest with
      | third :: _ => if 0xF0 ≤ first && 0x80 ≤ third && third ≤ 0xBF then 3 else 2
      | [] => 2
    else 1
  | _ => 1

/-- At most `n` characters of some bytes. -/
def lossyChars : Nat → Bytes → List Char
  | 0, _ => []
  | _ + 1, [] => []
  | n + 1, b =>
    match decodeChar? b with
    | some c => c :: lossyChars n (b.drop c.utf8Size)
    | none => '\uFFFD' :: lossyChars n (b.drop (invalidLength b))

def fromUtf8Lossy (b : Bytes) : String := String.ofList (lossyChars b.length b)

/-! ## Pairs -/

/-- A name or a value. -/
def decode (b : Bytes) : String :=
  fromUtf8Lossy (percentDecode (b.map fun byte => if byte = 0x2B then 0x20 else byte))

/-- A piece, up to its first `=` and after it. -/
def pair (piece : Bytes) : String × String :=
  match piece.span (· ≠ 0x3D) with
  | (name, []) => (decode name, decode [])
  | (name, _ :: value) => (decode name, decode value)

def parse (query : Bytes) : List (String × String) := ((query.splitOn 0x26).filter (!·.isEmpty)).map pair

/-- The values a name has. -/
def values (pairs : List (String × String)) (name : String) : List String := (pairs.filter (·.1 == name)).map (·.2)

section
variable {pairs : List (String × String)} {name name' value : String}

@[simp] theorem values_nil (name : String) : values [] name = [] := rfl

theorem values_cons_self : values ((name, value) :: pairs) name = value :: values pairs name := by
  simp [values]

theorem values_cons_other (h : name' ≠ name) : values ((name', value) :: pairs) name = values pairs name := by
  simp [values, h]

end

/-! ## Escapes that are all valid -/

theorem hexDigit?_percent : hexDigit? percent = none := by decide

theorem hexDigit?_lt {byte digit : UInt8} (h : hexDigit? byte = some digit) : byte < 0x80 ∧ digit < 16 := by
  unfold hexDigit? at h
  split at h
  · rename_i hrange
    have hsub := UInt8.toNat_sub_of_le byte 0x30 hrange.1
    cases h
    simp [UInt8.le_iff_toNat_le, UInt8.lt_iff_toNat_lt] at *
    omega
  · split at h
    · rename_i hrange
      have hsub := UInt8.toNat_sub_of_le byte 0x61 hrange.1
      cases h
      simp [UInt8.le_iff_toNat_le, UInt8.lt_iff_toNat_lt] at *
      omega
    · split at h
      · rename_i hrange
        have hsub := UInt8.toNat_sub_of_le byte 0x41 hrange.1
        cases h
        simp [UInt8.le_iff_toNat_le, UInt8.lt_iff_toNat_lt] at *
        omega
      · cases h

theorem percentDecode_byte {a : UInt8} (h : a ≠ percent) (rest : Bytes) :
    percentDecode (a :: rest) = a :: percentDecode rest := by
  match rest with
  | [] => rfl
  | [_] => rfl
  | _ :: _ :: _ => rw [percentDecode, if_neg h]

theorem percentDecode_escape {b c high low : UInt8} (hb : hexDigit? b = some high) (hc : hexDigit? c = some low)
    (rest : Bytes) : percentDecode (percent :: b :: c :: rest) = (high * 16 + low) :: percentDecode rest := by
  rw [percentDecode, if_pos rfl, hb, hc]

theorem escaped_nil : Escaped [] := by
  intro i h
  cases h

theorem escaped_byte {a : UInt8} (h : a ≠ percent) {rest : Bytes} : Escaped (a :: rest) ↔ Escaped rest := by
  constructor
  · intro hq i hi
    exact hq (i + 1) hi
  · intro hq i hi
    cases i with
    | zero =>
      cases hi
      exact absurd rfl h
    | succ i => exact hq i hi

theorem escaped_percent {rest : Bytes} : Escaped (percent :: rest) ↔
    ∃ b c rest', rest = b :: c :: rest' ∧ (hexDigit? b).isSome = true ∧ (hexDigit? c).isSome = true ∧ Escaped rest' := by
  have hne : ∀ {x : UInt8}, (hexDigit? x).isSome = true → x ≠ percent := by
    intro x hx heq
    rw [heq, hexDigit?_percent] at hx
    cases hx
  constructor
  · intro hq
    obtain ⟨⟨b, hb, hhigh⟩, c, hc, hlow⟩ := hq 0 rfl
    cases rest with
    | nil => cases hb
    | cons b' rest =>
      cases hb
      cases rest with
      | nil => cases hc
      | cons c' rest =>
        cases hc
        refine ⟨b, c, rest, rfl, hhigh, hlow, ?_⟩
        intro i hi
        exact hq (i + 3) hi
  · intro h
    obtain ⟨b, c, rest', rfl, hb, hc, hq⟩ := h
    intro i hi
    match i with
    | 0 => exact ⟨⟨b, rfl, hb⟩, c, rfl, hc⟩
    | 1 =>
      cases hi
      exact absurd rfl (hne hb)
    | 2 =>
      cases hi
      exact absurd rfl (hne hc)
    | i + 3 => exact hq i hi

theorem escaped_escape {c d high low : UInt8} {q : Bytes} (hc : hexDigit? c = some high) (hd : hexDigit? d = some low) :
    Escaped (percent :: c :: d :: q) ↔ Escaped q := by
  rw [escaped_percent]
  constructor
  · intro h
    obtain ⟨_, _, _, heq, -, -, h⟩ := h
    cases heq
    exact h
  · intro h
    exact ⟨c, d, q, rfl, by rw [hc]; rfl, by rw [hd]; rfl, h⟩

end Form
