/-
SHA-256. The bytes are padded to blocks of 64, and each block is mixed into
eight words in 64 rounds, whose words are made from the last 16 as they go.
-/
import Mathlib.Logic.Basic

namespace Sha256

structure State where
  a : UInt32
  b : UInt32
  c : UInt32
  d : UInt32
  e : UInt32
  f : UInt32
  g : UInt32
  h : UInt32
  deriving DecidableEq, Repr

/-- The fractional parts of the square roots of the first eight primes. -/
def initial : State where
  a := 0x6a09e667
  b := 0xbb67ae85
  c := 0x3c6ef372
  d := 0xa54ff53a
  e := 0x510e527f
  f := 0x9b05688c
  g := 0x1f83d9ab
  h := 0x5be0cd19

/-- The fractional parts of the cube roots of the first 64 primes. -/
def roundConstants : List UInt32 := [
  0x428a2f98, 0x71374491, 0xb5c0fbcf, 0xe9b5dba5, 0x3956c25b, 0x59f111f1, 0x923f82a4, 0xab1c5ed5,
  0xd807aa98, 0x12835b01, 0x243185be, 0x550c7dc3, 0x72be5d74, 0x80deb1fe, 0x9bdc06a7, 0xc19bf174,
  0xe49b69c1, 0xefbe4786, 0x0fc19dc6, 0x240ca1cc, 0x2de92c6f, 0x4a7484aa, 0x5cb0a9dc, 0x76f988da,
  0x983e5152, 0xa831c66d, 0xb00327c8, 0xbf597fc7, 0xc6e00bf3, 0xd5a79147, 0x06ca6351, 0x14292967,
  0x27b70a85, 0x2e1b2138, 0x4d2c6dfc, 0x53380d13, 0x650a7354, 0x766a0abb, 0x81c2c92e, 0x92722c85,
  0xa2bfe8a1, 0xa81a664b, 0xc24b8b70, 0xc76c51a3, 0xd192e819, 0xd6990624, 0xf40e3585, 0x106aa070,
  0x19a4c116, 0x1e376c08, 0x2748774c, 0x34b0bcb5, 0x391c0cb3, 0x4ed8aa4a, 0x5b9cca4f, 0x682e6ff3,
  0x748f82ee, 0x78a5636f, 0x84c87814, 0x8cc70208, 0x90befffa, 0xa4506ceb, 0xbef9a3f7, 0xc67178f2]

def rotateRight (x n : UInt32) : UInt32 := (x >>> n) ||| (x <<< (32 - n))

def round (s : State) (constant word : UInt32) : State :=
  let choice := (s.e &&& s.f) ^^^ (~~~s.e &&& s.g)
  let majority := (s.a &&& s.b) ^^^ (s.a &&& s.c) ^^^ (s.b &&& s.c)
  let mixedE := rotateRight s.e 6 ^^^ rotateRight s.e 11 ^^^ rotateRight s.e 25
  let mixedA := rotateRight s.a 2 ^^^ rotateRight s.a 13 ^^^ rotateRight s.a 22
  let t := s.h + mixedE + choice + constant + word
  { a := t + (mixedA + majority), b := s.a, c := s.b, d := s.c, e := s.d + t, f := s.e, g := s.f, h := s.g }

/-- The word after 16 words. -/
def nextWord (words : List UInt32) : UInt32 :=
  let early := words.getD 1 0
  let late := words.getD 14 0
  words.getD 0 0 + (rotateRight early 7 ^^^ rotateRight early 18 ^^^ (early >>> 3)) + words.getD 9 0 +
    (rotateRight late 17 ^^^ rotateRight late 19 ^^^ (late >>> 10))

def compress (s : State) (block : List UInt32) : State :=
  let (t, _) := roundConstants.foldl
    (fun x constant => (round x.1 constant (x.2.headD 0), x.2.tail ++ [nextWord x.2])) (s, block)
  { a := s.a + t.a, b := s.b + t.b, c := s.c + t.c, d := s.d + t.d, e := s.e + t.e, f := s.f + t.f, g := s.g + t.g,
    h := s.h + t.h }

/-- The lists of so many elements each, as often as that. -/
def chunks {α : Type} (size : Nat) : Nat → List α → List (List α)
  | 0, _ => []
  | n + 1, l => l.take size :: chunks size n (l.drop size)

def word (bytes : List UInt8) : UInt32 := bytes.foldl (fun word byte => (word <<< 8) ||| byte.toUInt32) 0

/-- The last bytes of a number, as many as that. -/
def bigEndian (size n : Nat) : List UInt8 := (List.range size).map fun i => UInt8.ofNat (n >>> (8 * (size - 1 - i)))

def padded (bytes : List UInt8) : List UInt8 :=
  bytes ++ [0x80] ++ List.replicate ((119 - bytes.length % 64) % 64) 0 ++ bigEndian 8 (8 * bytes.length)

def digest (bytes : List UInt8) : List UInt8 :=
  let blocks := chunks 64 ((padded bytes).length / 64) (padded bytes)
  let s := blocks.foldl (fun s block => compress s ((chunks 4 16 block).map word)) initial
  [s.a, s.b, s.c, s.d, s.e, s.f, s.g, s.h].flatMap fun word => bigEndian 4 word.toNat

def hexDigit (n : Nat) : Char := "0123456789abcdef".toList.getD n '0'

theorem hexDigit_mem (n : Nat) : hexDigit n ∈ "0123456789abcdef".toList := by
  rw [hexDigit, List.getD_eq_getElem?_getD]
  cases h : "0123456789abcdef".toList[n]? with
  | none => decide
  | some digit => exact List.mem_of_getElem? h

def hexdigest (bytes : List UInt8) : String :=
  String.ofList ((digest bytes).flatMap fun byte => [hexDigit (byte.toNat / 16), hexDigit (byte.toNat % 16)])

example : hexdigest [0x61, 0x62, 0x63] = "ba7816bf8f01cfea414140de5dae2223b00361a396177a9cb410ff61f20015ad" := by
  decide +kernel

end Sha256
