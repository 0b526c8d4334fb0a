/-
Reading JSON from bytes, as a strict parser reads it: no leading zeros, no
control characters in a string, surrogates only in pairs, valid UTF-8 in
every string, nesting to a limit, nothing but white space after the value.

The reader recurses on the number of arrays and objects it may still open.
-/
import AgentHarness.Lib.Json.Value
import AgentHarness.Lib.Text

namespace Json

open Text

/-! ## Tokens -/

def quote : UInt8 := 0x22
def backslash : UInt8 := 0x5c
def comma : UInt8 := 0x2c
def colon : UInt8 := 0x3a
def openBracket : UInt8 := 0x5b
def closeBracket : UInt8 := 0x5d
def openBrace : UInt8 := 0x7b
def closeBrace : UInt8 := 0x7d

def isSpace (b : UInt8) : Bool := b == 0x20 || b == 0x09 || b == 0x0a || b == 0x0d

def skipSpace (bs : Bytes) : Bytes := bs.dropWhile isSpace

/-- The bytes after `name`, when they begin with it. -/
def literal (name : Bytes) (bs : Bytes) : Option Bytes :=
  if name.isPrefixOf bs then some (bs.drop name.length) else none

/-! ## Numbers -/

def isDigit (b : UInt8) : Bool := 0x30 ≤ b && b ≤ 0x39

/-- The number some digits write, in base ten. -/
def ofDigits (ds : Bytes) : Nat := ds.foldl (fun n d => 10 * n + (d.toNat - 0x30)) 0

/-- The digits after a decimal point, if there is one. -/
def fraction : Bytes → Option (Bytes × Bytes)
  | b :: bs =>
    if b = 0x2e then
      let (ds, rest) := bs.span isDigit
      if ds.isEmpty then none else some (ds, rest)
    else some ([], b :: bs)
  | [] => some ([], [])

/-- The exponent, if there is one. -/
def exponent : Bytes → Option (Option Int × Bytes)
  | b :: bs =>
    if b = 0x65 || b = 0x45 then
      let (negative, bs) := match bs with
        | s :: bs => if s = 0x2d then (true, bs) else if s = 0x2b then (false, bs) else (false, s :: bs)
        | [] => (false, [])
      let (ds, rest) := bs.span isDigit
      if ds.isEmpty then none
      else some (some (if negative then -(ofDigits ds : Int) else ofDigits ds), rest)
    else some (none, b :: bs)
  | [] => some (none, [])

/-- A decimal rounds to a finite double when it is below the midpoint
between the largest one and `2 ^ 1024`. -/
def finite (digits : Nat) (exponent : Int) : Bool :=
  digits * Nat.pow 10 exponent.toNat < (Nat.pow 2 1024 - Nat.pow 2 970) * Nat.pow 10 (-exponent).toNat

/-- The number a sign, whole digits, fraction digits and exponent write: an
integer when there is neither of the last two and it fits, `-0` apart. -/
def Number.ofParts (negative : Bool) (whole frac : Bytes) (exp : Option Int) : Option Number :=
  let n := ofDigits whole
  if frac.isEmpty && exp.isNone && !negative && n < UInt64.size then some (.posInt (UInt64.ofNat n))
  else if frac.isEmpty && exp.isNone && negative && 0 < n && n ≤ 0x8000000000000000 then some (.negInt (UInt64.ofNat n))
  else
    let exponent := exp.getD 0 - frac.length
    if finite (ofDigits (whole ++ frac)) exponent then some (.float negative (ofDigits (whole ++ frac)) exponent)
    else none

/-- A number without its sign. -/
def unsigned (negative : Bool) (bs : Bytes) : Option (Number × Bytes) := do
  let (whole, bs) := bs.span isDigit
  if whole.isEmpty || (whole.head? == some 0x30 && whole.length > 1) then none
  else
    let (frac, bs) ← fraction bs
    let (exp, bs) ← exponent bs
    return (← Number.ofParts negative whole frac exp, bs)

def number : Bytes → Option (Number × Bytes)
  | b :: bs => if b = 0x2d then unsigned true bs else unsigned false (b :: bs)
  | [] => none

/-! ## Strings -/

def hexValue (b : UInt8) : Option Nat :=
  if isDigit b then some (b.toNat - 0x30)
  else if 0x61 ≤ b && b ≤ 0x66 then some (b.toNat - 0x61 + 10)
  else if 0x41 ≤ b && b ≤ 0x46 then some (b.toNat - 0x41 + 10)
  else none

def hex4 (a b c d : UInt8) : Option Nat := do
  return 4096 * (← hexValue a) + 256 * (← hexValue b) + 16 * (← hexValue c) + (← hexValue d)

/-- The byte an escape of two characters stands for. -/
def simpleEscape (b : UInt8) : Option UInt8 :=
  if b = quote || b = backslash || b = 0x2f then some b
  else if b = 0x62 then some 0x08
  else if b = 0x66 then some 0x0c
  else if b = 0x6e then some 0x0a
  else if b = 0x72 then some 0x0d
  else if b = 0x74 then some 0x09
  else none

def isHighSurrogate (n : Nat) : Bool := 0xd800 ≤ n && n < 0xdc00
def isLowSurrogate (n : Nat) : Bool := 0xdc00 ≤ n && n < 0xe000

/-- The UTF-8 bytes of a code point. -/
def codePoint (n : Nat) : Bytes := utf8 (String.singleton (Char.ofNat n))

def prepend (pre : Bytes) : Option (Bytes × Bytes) → Option (Bytes × Bytes)
  | some (s, rest) => some (pre ++ s, rest)
  | none => none

/-- The bytes of a string up to its closing quote, escapes undone, and what
follows it. -/
def stringBody : Bytes → Option (Bytes × Bytes)
  | [] => none
  | b :: bs =>
    if b = quote then some ([], bs)
    else if b = backslash then
      match bs with
      | [] => none
      | e :: bs =>
        if e = 0x75 then
          match bs with
          | h₁ :: h₂ :: h₃ :: h₄ :: bs =>
            match hex4 h₁ h₂ h₃ h₄ with
            | none => none
            | some high =>
              if isLowSurrogate high then none
              else if isHighSurrogate high then
                match bs with
                | s :: u :: l₁ :: l₂ :: l₃ :: l₄ :: bs =>
                  match hex4 l₁ l₂ l₃ l₄ with
                  | none => none
                  | some low =>
                    if s = backslash && u = 0x75 && isLowSurrogate low then
                      prepend (codePoint (0x10000 + 0x400 * (high - 0xd800) + (low - 0xdc00))) (stringBody bs)
                    else none
                | _ => none
              else prepend (codePoint high) (stringBody bs)
          | _ => none
        else match simpleEscape e with
          | none => none
          | some c => prepend [c] (stringBody bs)
    else if b < 0x20 then none
    else prepend [b] (stringBody bs)

/-- A string after its opening quote. -/
def string (bs : Bytes) : Option (String × Bytes) := do
  let (body, rest) ← stringBody bs
  return (← ofUtf8? body, rest)

/-! ## Values -/

section
variable {α : Type} (item : Bytes → Option (α × Bytes)) (close : UInt8)

/-- One item, and the items after it up to the closing byte, commas between
them. Every item takes a byte, so their number is bounded by the length. -/
def itemsTail : (bound : Nat) → Bytes → Option (List α × Bytes)
  | 0, _ => none
  | bound + 1, bs =>
    match item bs with
    | none => none
    | some (x, bs) =>
      match skipSpace bs with
      | [] => none
      | b :: bs =>
        if b = close then some ([x], bs)
        else if b = comma then
          match itemsTail bound bs with
          | none => none
          | some (xs, rest) => some (x :: xs, rest)
        else none

/-- The items of an array or the members of an object, after the opening byte. -/
def items (bs : Bytes) : Option (List α × Bytes) :=
  match skipSpace bs with
  | [] => none
  | b :: rest => if b = close then some ([], rest) else itemsTail item close bs.length (b :: rest)

end

/-- A member of an object: its key, a colon and its value. -/
def member (value : Bytes → Option (Json × Bytes)) (bs : Bytes) : Option ((String × Json) × Bytes) :=
  match skipSpace bs with
  | [] => none
  | b :: bs =>
    if b = quote then
      match string bs with
      | none => none
      | some (key, bs) =>
        match skipSpace bs with
        | [] => none
        | b :: bs => if b = colon then (value bs).map fun (v, rest) => ((key, v), rest) else none
    else none

/-- A value that opens no array or object, by its first byte. -/
def scalar (b : UInt8) (bs : Bytes) : Option (Json × Bytes) :=
  if b = quote then (string bs).map fun (s, rest) => (.str s, rest)
  else if b = 0x6e then (literal (utf8 "ull") bs).map fun rest => (.null, rest)
  else if b = 0x74 then (literal (utf8 "rue") bs).map fun rest => (.bool true, rest)
  else if b = 0x66 then (literal (utf8 "alse") bs).map fun rest => (.bool false, rest)
  else (number (b :: bs)).map fun (n, rest) => (.num n, rest)

/-- The value the bytes begin with, white space before it skipped, with
`depth` arrays and objects still to be opened in it. -/
def value : (depth : Nat) → Bytes → Option (Json × Bytes)
  | 0, bs =>
    match skipSpace bs with
    | [] => none
    | b :: bs => if b = openBracket || b = openBrace then none else scalar b bs
  | depth + 1, bs =>
    match skipSpace bs with
    | [] => none
    | b :: bs =>
      if b = openBracket then (items (value depth) closeBracket bs).map fun (vs, rest) => (.arr vs, rest)
      else if b = openBrace then (items (member (value depth)) closeBrace bs).map fun (ms, rest) => (.obj ms, rest)
      else scalar b bs

/-- How many arrays and objects may be open at once. -/
def maxDepth : Nat := 127

/-- The value some bytes are, with nothing but white space around it. -/
def parse (bs : Bytes) : Option Json :=
  match value maxDepth bs with
  | some (v, rest) => if (skipSpace rest).isEmpty then some v else none
  | none => none

example : parse (utf8 "[1, -2, \"\\u00e9\\n\", null]") =
    some (.arr [.num (.posInt 1), .num (.negInt 2), .str "é\n", .null]) := by rfl

end Json
