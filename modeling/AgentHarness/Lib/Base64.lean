/-
Base64 with the URL-safe alphabet and no padding (RFC 4648 §5): decoding
refuses padding, characters outside the alphabet, a lone last character and
non-zero trailing bits. What is encoded is decoded to what it was of.
-/
import AgentHarness.Lib.Text

namespace Base64

open Text (Bytes)

/-- The six bits a character of the URL-safe alphabet stands for. -/
def sextet (c : Char) : Option Nat :=
  let n := c.toNat
  if 65 ≤ n && n ≤ 90 then some (n - 65)
  else if 97 ≤ n && n ≤ 122 then some (n - 71)
  else if 48 ≤ n && n ≤ 57 then some (n + 4)
  else if c = '-' then some 62
  else if c = '_' then some 63
  else none

/-- Decode four characters to three bytes at a time. -/
def urlSafeNoPadDecode : List Char → Option Bytes
  | [] => some []
  | [_] => none
  | [a, b] => do
    let a ← sextet a
    let b ← sextet b
    if b % 16 = 0 then some [UInt8.ofNat (a * 4 + b / 16)] else none
  | [a, b, c] => do
    let a ← sextet a
    let b ← sextet b
    let c ← sextet c
    if c % 4 = 0 then some [UInt8.ofNat (a * 4 + b / 16), UInt8.ofNat (b % 16 * 16 + c / 4)] else none
  | a :: b :: c :: d :: rest => do
    let a ← sextet a
    let b ← sextet b
    let c ← sextet c
    let d ← sextet d
    let tail ← urlSafeNoPadDecode rest
    some (UInt8.ofNat (a * 4 + b / 16) :: UInt8.ofNat (b % 16 * 16 + c / 4) ::
      UInt8.ofNat (c % 4 * 64 + d) :: tail)

/-! ## Encoding -/

/-- The character that stands for six bits. -/
def character (n : Nat) : Char :=
  if n < 26 then Char.ofNat (n + 65)
  else if n < 52 then Char.ofNat (n + 71)
  else if n < 62 then Char.ofNat (n - 4)
  else if n = 62 then '-'
  else '_'

/-- Encode three bytes to four characters at a time. -/
def urlSafeNoPadEncode : Bytes → List Char
  | [] => []
  | [a] => [character (a.toNat / 4), character (a.toNat % 4 * 16)]
  | [a, b] =>
    [character (a.toNat / 4), character (a.toNat % 4 * 16 + b.toNat / 16), character (b.toNat % 16 * 4)]
  | a :: b :: c :: rest =>
    character (a.toNat / 4) :: character (a.toNat % 4 * 16 + b.toNat / 16) ::
      character (b.toNat % 16 * 4 + c.toNat / 64) :: character (c.toNat % 64) :: urlSafeNoPadEncode rest

theorem sextet_character {n : Nat} (h : n < 64) : sextet (character n) = some n := by
  have hall : ∀ n < 64, sextet (character n) = some n := by decide +kernel
  exact hall n h

theorem ofNat_eq {x : UInt8} {n : Nat} (h : n = x.toNat) : UInt8.ofNat n = x := by
  rw [h, UInt8.ofNat_toNat]

/-- **What is encoded** is decoded to the bytes it was of. -/
theorem decode_encode (bytes : Bytes) : urlSafeNoPadDecode (urlSafeNoPadEncode bytes) = some bytes := by
  have hlt : ∀ x : UInt8, x.toNat < 256 := UInt8.toNat_lt
  fun_induction urlSafeNoPadEncode bytes with
  | case1 => rfl
  | case2 a =>
    have ha := hlt a
    have hbits : a.toNat % 4 * 16 % 16 = 0 := by omega
    rw [urlSafeNoPadDecode, sextet_character (by omega), sextet_character (by omega)]
    simp only [Option.bind_eq_bind, Option.bind_some, hbits, if_true]
    rw [ofNat_eq (x := a) (by omega)]
  | case3 a b =>
    have ha := hlt a
    have hb := hlt b
    have hbits : b.toNat % 16 * 4 % 4 = 0 := by omega
    rw [urlSafeNoPadDecode, sextet_character (by omega), sextet_character (by omega), sextet_character (by omega)]
    simp only [Option.bind_eq_bind, Option.bind_some, hbits, if_true]
    rw [ofNat_eq (x := a) (by omega), ofNat_eq (x := b) (by omega)]
  | case4 a b c rest ih =>
    have ha := hlt a
    have hb := hlt b
    have hc := hlt c
    rw [urlSafeNoPadDecode, sextet_character (by omega), sextet_character (by omega), sextet_character (by omega),
      sextet_character (by omega), ih]
    simp only [Option.bind_eq_bind, Option.bind_some]
    rw [ofNat_eq (x := a) (by omega), ofNat_eq (x := b) (by omega), ofNat_eq (x := c) (by omega)]

theorem encode_inj {bytes bytes' : Bytes} (h : urlSafeNoPadEncode bytes = urlSafeNoPadEncode bytes') : bytes = bytes' := by
  have hdecoded := decode_encode bytes
  rw [h, decode_encode] at hdecoded
  exact (Option.some.inj hdecoded).symm

theorem length_encode (bytes : Bytes) : (urlSafeNoPadEncode bytes).length = (4 * bytes.length + 2) / 3 := by
  fun_induction urlSafeNoPadEncode bytes with
  | case1 => rfl
  | case2 => simp
  | case3 => simp
  | case4 a b c rest ih =>
    simp only [List.length_cons, ih]
    omega

end Base64
