/-
Pairs written as a query: a space is `+`, a byte that is no letter, digit or
one of `*-._` is escaped, and the pairs are put after one another with `&`.
What is written is ASCII, and is read back as the pairs it was written of.
-/
import AgentHarness.Lib.FormBytes

namespace Form

open Text

/-! ## Writing -/

/-- A byte that is written as it is. -/
def isUnchanged (byte : UInt8) : Bool :=
  byte == 0x2A || byte == 0x2D || byte == 0x2E || (0x30 ≤ byte && byte ≤ 0x39) || (0x41 ≤ byte && byte ≤ 0x5A) ||
    byte == 0x5F || (0x61 ≤ byte && byte ≤ 0x7A)

/-- A hexadecimal digit in upper case. -/
def upperDigit (n : Nat) : UInt8 := UInt8.ofNat (if n < 10 then 0x30 + n else 0x41 + (n - 10))

def serializeByte (byte : UInt8) : Bytes :=
  if isUnchanged byte then [byte]
  else if byte = 0x20 then [0x2B]
  else [percent, upperDigit (byte.toNat / 16), upperDigit (byte.toNat % 16)]

def serializeBytes (b : Bytes) : Bytes := b.flatMap serializeByte

/-- A pair after those that are there. -/
def appendPair (query : Bytes) (pair : String × String) : Bytes :=
  (if query.isEmpty then [] else query ++ [0x26]) ++ serializeBytes (utf8 pair.1) ++ 0x3D :: serializeBytes (utf8 pair.2)

def appendPairs (query : Bytes) (pairs : List (String × String)) : Bytes := pairs.foldl appendPair query

/-! ## One name or value -/

/-- What is written for a byte: the byte itself, a `+`, or an escape of it. -/
theorem serializeByte_cases (byte : UInt8) :
    (serializeByte byte = [byte] ∧ isUnchanged byte = true) ∨ (serializeByte byte = [0x2B] ∧ byte = 0x20) ∨
      ∃ high low x y, serializeByte byte = [percent, high, low] ∧ hexDigit? high = some x ∧ hexDigit? low = some y ∧
        byte = x * 16 + y := by
  unfold serializeByte
  split
  · rename_i h
    exact .inl ⟨rfl, h⟩
  · split
    · rename_i h
      exact .inr (.inl ⟨rfl, h⟩)
    · have hdigit : ∀ n < 16, hexDigit? (upperDigit n) = some (UInt8.ofNat n) := by decide
      have hlt : byte.toNat < 256 := byte.toNat_lt
      refine .inr (.inr ⟨_, _, _, _, rfl, hdigit _ (by omega), hdigit _ (by omega), ?_⟩)
      have hsixteen : (16 : UInt8).toNat = 16 := rfl
      refine UInt8.toNat_inj.mp ?_
      rw [UInt8.toNat_add, UInt8.toNat_mul, UInt8.toNat_ofNat', UInt8.toNat_ofNat', hsixteen]
      omega

section
variable {byte x : UInt8} {b : Bytes}

/-- A byte that has a place of its own in a query is in nothing that is written. -/
theorem not_mem_serializeByte (hx : isUnchanged x = false) (hplus : x ≠ 0x2B) (hpercent : x ≠ percent) :
    x ∉ serializeByte byte := by
  intro hmem
  rcases serializeByte_cases byte with ⟨heq, hbyte⟩ | ⟨heq, -⟩ | ⟨high, low, _, _, heq, hhigh, hlow, -⟩
  · rw [heq, List.mem_singleton] at hmem
    rw [hmem, hbyte] at hx
    cases hx
  · rw [heq, List.mem_singleton] at hmem
    exact hplus hmem
  · have hdigit : ∀ n < 256, (hexDigit? (UInt8.ofNat n)).isSome = true → isUnchanged (UInt8.ofNat n) = true := by
      decide +kernel
    have hunchanged : ∀ {y z}, hexDigit? y = some z → isUnchanged y = true := by
      intro y z hy
      have h := hdigit y.toNat y.toNat_lt
      rw [UInt8.ofNat_toNat, hy] at h
      exact h rfl
    rw [heq] at hmem
    simp only [List.mem_cons, List.not_mem_nil, or_false] at hmem
    rcases hmem with h | h | h
    · exact hpercent h
    · rw [h, hunchanged hhigh] at hx
      cases hx
    · rw [h, hunchanged hlow] at hx
      cases hx

theorem not_mem_serializeBytes (hx : isUnchanged x = false) (hplus : x ≠ 0x2B) (hpercent : x ≠ percent) :
    x ∉ serializeBytes b := by
  intro hmem
  obtain ⟨byte, -, hmem⟩ := List.mem_flatMap.mp hmem
  exact not_mem_serializeByte hx hplus hpercent hmem

theorem and_not_mem : 0x26 ∉ serializeBytes b := not_mem_serializeBytes (by decide) (by decide) (by decide)
theorem equals_not_mem : 0x3D ∉ serializeBytes b := not_mem_serializeBytes (by decide) (by decide) (by decide)

/-- What a query that is written consists of. -/
def isWritten (byte : UInt8) : Bool :=
  isUnchanged byte || byte == 0x2B || byte == percent || byte == 0x26 || byte == 0x3D

theorem isWritten_of_mem (h : x ∈ serializeBytes b) : isWritten x = true := by
  by_contra hx
  simp only [isWritten, Bool.or_eq_true, beq_iff_eq, not_or, Bool.not_eq_true] at hx
  exact not_mem_serializeBytes hx.1.1.1.1 hx.1.1.1.2 hx.1.1.2 h

theorem ascii_of_isWritten (h : isWritten x = true) : x < 0x80 := by
  have hall : ∀ n < 256, isWritten (UInt8.ofNat n) = true → UInt8.ofNat n < 0x80 := by decide +kernel
  have hx := hall x.toNat x.toNat_lt
  rw [UInt8.ofNat_toNat] at hx
  exact hx h

theorem plain_of_isUnchanged (h : isUnchanged x = true) : x ≠ percent ∧ x ≠ 0x2B := by
  constructor <;> rintro rfl <;> exact absurd h (by decide)

theorem escaped_serializeBytes (b : Bytes) : Escaped (serializeBytes b) := by
  induction b with
  | nil => exact escaped_nil
  | cons byte b ih =>
    rw [serializeBytes, List.flatMap_cons]
    rcases serializeByte_cases byte with ⟨heq, hbyte⟩ | ⟨heq, -⟩ | ⟨high, low, _, _, heq, hhigh, hlow, -⟩
    · rw [heq]
      exact (escaped_byte (plain_of_isUnchanged hbyte).1).mpr ih
    · rw [heq]
      exact (escaped_byte mark_plus.plain).mpr ih
    · rw [heq]
      exact (escaped_escape hhigh hlow).mpr ih

/-- **What is written of some bytes** is decoded to them. -/
theorem decoded_serializeBytes (b : Bytes) : decoded (serializeBytes b) = b := by
  induction b with
  | nil => rfl
  | cons byte b ih =>
    rw [decoded, serializeBytes] at ih
    rw [decoded, serializeBytes, List.flatMap_cons, List.map_append]
    rcases serializeByte_cases byte with ⟨heq, hbyte⟩ | ⟨heq, rfl⟩ | ⟨high, low, x, y, heq, hhigh, hlow, rfl⟩
    · obtain ⟨hpercent, hplus⟩ := plain_of_isUnchanged hbyte
      rw [heq, List.map_singleton, if_neg hplus, List.singleton_append, percentDecode_byte hpercent, ih]
    · rw [heq, List.map_singleton, if_pos rfl, List.singleton_append, percentDecode_byte mark_space.plain, ih]
    · have hdigit : ∀ {y digit}, hexDigit? y = some digit → y ≠ 0x2B := by
        rintro y digit hy rfl
        rw [mark_plus.digit] at hy
        cases hy
      have hpercent : percent ≠ 0x2B := by decide
      rw [heq, List.map_cons, List.map_cons, List.map_singleton, if_neg hpercent, if_neg (hdigit hhigh),
        if_neg (hdigit hlow)]
      simp only [List.cons_append, List.nil_append]
      rw [percentDecode_escape hhigh hlow, ih]

end

/-- **A name or a value is read back** as it was written. -/
theorem decode_serializeBytes (s : String) : decode (serializeBytes (utf8 s)) = s := by
  have hdecoded := decoded_serializeBytes (utf8 s)
  have hvalid : ValidUtf8 (utf8 s) := by rw [ValidUtf8, ofUtf8?_utf8]; rfl
  have hlossless := utf8_fromUtf8Lossy.mpr hvalid
  rw [decode, ← decoded, hdecoded]
  exact utf8_inj hlossless

/-! ## Queries -/

section
variable {query : Bytes} {pair : String × String} {pairs : List (String × String)}

/-- What one pair is written as. -/
def piece (pair : String × String) : Bytes := serializeBytes (utf8 pair.1) ++ 0x3D :: serializeBytes (utf8 pair.2)

theorem appendPair_eq (query : Bytes) (pair : String × String) :
    appendPair query pair = (if query.isEmpty then [] else query ++ [0x26]) ++ piece pair := by
  rw [appendPair, piece, List.append_assoc]

theorem piece_ne_nil (pair : String × String) : piece pair ≠ [] := by
  simp [piece]

theorem and_not_mem_piece : 0x26 ∉ piece pair := by
  rw [piece, List.mem_append, List.mem_cons, not_or, not_or]
  exact ⟨and_not_mem, by decide, and_not_mem⟩

theorem pair_piece (pair : String × String) : Form.pair (piece pair) = pair := by
  rw [pair_eq, piece, pairBytes_equals equals_not_mem, Prod.map_apply]
  exact Prod.ext (decode_serializeBytes pair.1) (decode_serializeBytes pair.2)

theorem parse_piece (pair : String × String) : parse (piece pair) = [pair] := by
  rw [parse, List.splitOn_eq_singleton and_not_mem_piece, List.filter_singleton]
  have hne : (piece pair).isEmpty = false := by simpa using piece_ne_nil pair
  simp [hne, pair_piece]

theorem parse_append (query query' : Bytes) : parse (query ++ 0x26 :: query') = parse query ++ parse query' := by
  rw [parse, List.splitOn_append_cons_self, List.filter_append, List.map_append]
  rfl

/-- **A pair that is written is read** after the others. -/
theorem parse_appendPair (query : Bytes) (pair : String × String) : parse (appendPair query pair) = parse query ++ [pair] := by
  rw [appendPair_eq]
  cases hquery : query.isEmpty with
  | true =>
    rw [List.isEmpty_iff] at hquery
    subst hquery
    exact parse_piece pair
  | false =>
    have hassoc : query ++ [0x26] ++ piece pair = query ++ 0x26 :: piece pair := by simp
    rw [if_neg Bool.false_ne_true, hassoc, parse_append, parse_piece]

/-- **A query is read as the pairs it was written of.** -/
theorem parse_appendPairs (query : Bytes) (pairs : List (String × String)) :
    parse (appendPairs query pairs) = parse query ++ pairs := by
  induction pairs generalizing query with
  | nil => rw [appendPairs, List.foldl_nil, List.append_nil]
  | cons pair pairs ih =>
    have hrest := ih (appendPair query pair)
    rw [parse_appendPair, List.append_assoc, List.singleton_append] at hrest
    exact hrest

theorem isWritten_of_mem_appendPair {x : UInt8} (h : x ∈ appendPair query pair) : x ∈ query ∨ isWritten x = true := by
  have hpiece : ∀ x ∈ piece pair, isWritten x = true := by
    intro x hmem
    rw [piece, List.mem_append, List.mem_cons] at hmem
    rcases hmem with hmem | rfl | hmem
    · exact isWritten_of_mem hmem
    · rfl
    · exact isWritten_of_mem hmem
  rw [appendPair_eq, List.mem_append] at h
  rcases h with h | h
  · split at h
    · cases h
    · rw [List.mem_append, List.mem_singleton] at h
      rcases h with h | rfl
      · exact .inl h
      · exact .inr rfl
  · exact .inr (hpiece x h)

/-- What is put after a query consists of what is written. -/
theorem isWritten_of_mem_appendPairs {x : UInt8} (h : x ∈ appendPairs query pairs) : x ∈ query ∨ isWritten x = true := by
  induction pairs generalizing query with
  | nil => exact .inl h
  | cons pair pairs ih =>
    rcases ih h with h | h
    · exact isWritten_of_mem_appendPair h
    · exact .inr h

theorem ascii_appendPairs_nil : ∀ x ∈ appendPairs [] pairs, x < 0x80 := by
  intro x hmem
  rcases isWritten_of_mem_appendPairs hmem with h | h
  · cases h
  · exact ascii_of_isWritten h

theorem clean_nil : Clean [] := ⟨escaped_nil, validUtf8_iff.mpr ⟨[], rfl⟩⟩

theorem clean_serializeBytes (s : String) : Clean (serializeBytes (utf8 s)) := by
  refine (clean_decoded (escaped_serializeBytes _)).mp ?_
  rw [decoded_serializeBytes, ValidUtf8, ofUtf8?_utf8]
  rfl

theorem clean_appendPair (h : Clean query) : Clean (appendPair query pair) := by
  have hpiece : Clean (piece pair) := (clean_mark mark_equals).mpr ⟨clean_serializeBytes _, clean_serializeBytes _⟩
  rw [appendPair_eq]
  split
  · exact hpiece
  · have hassoc : query ++ [0x26] ++ piece pair = query ++ 0x26 :: piece pair := by simp
    rw [hassoc]
    exact (clean_mark mark_and).mpr ⟨h, hpiece⟩

theorem clean_appendPairs (h : Clean query) : Clean (appendPairs query pairs) := by
  induction pairs generalizing query with
  | nil => exact h
  | cons pair pairs ih => exact ih (clean_appendPair h)

end

/-! ## The values of a name -/

section
variable {pairs pairs' front others : List (String × String)} {name : String}

theorem values_append (pairs pairs' : List (String × String)) (name : String) :
    values (pairs ++ pairs') name = values pairs name ++ values pairs' name := by
  rw [values, List.filter_append, List.map_append]
  rfl

theorem values_eq_nil (h : ∀ pair ∈ pairs, pair.1 ≠ name) : values pairs name = [] := by
  rw [values, List.map_eq_nil_iff, List.filter_eq_nil_iff]
  intro pair hpair heq
  exact h pair hpair (beq_iff_eq.mp heq)

theorem values_perm (h : pairs.Perm pairs') (name : String) : (values pairs name).Perm (values pairs' name) := by
  rw [values, values]
  exact (h.filter _).map _

/-- A name that is there once at most has its value in any order. -/
theorem values_of_perm (h : pairs.Perm (front ++ others)) (hothers : ∀ pair ∈ others, pair.1 ≠ name)
    (hfront : (values front name).length ≤ 1) : values pairs name = values front name := by
  have hperm := values_perm h name
  rw [values_append, values_eq_nil hothers, List.append_nil] at hperm
  match hvalues : values front name with
  | [] => exact List.perm_nil.mp (hvalues ▸ hperm)
  | [value] => exact List.perm_singleton.mp (hvalues ▸ hperm)
  | _ :: _ :: _ => simp [hvalues] at hfront

end

/-! ## As text -/

/-- The text of some bytes in ASCII. -/
def asciiText (b : Bytes) : String := String.ofList (b.map fun byte => Char.ofNat byte.toNat)

theorem utf8_asciiText {b : Bytes} (h : ∀ x ∈ b, x < 0x80) : utf8 (asciiText b) = b := by
  have hchar : ∀ byte ∈ b, (Char.ofNat byte.toNat).toNat = byte.toNat := by
    intro byte hmem
    have hlt : byte.toNat < 128 := h byte hmem
    have hall : ∀ n < 128, (Char.ofNat n).toNat = n := by decide
    exact hall byte.toNat hlt
  have hascii : ∀ c ∈ (asciiText b).toList, c.toNat < 128 := by
    intro c hc
    rw [asciiText, String.toList_ofList] at hc
    obtain ⟨byte, hmem, rfl⟩ := List.mem_map.mp hc
    rw [hchar byte hmem]
    exact h byte hmem
  rw [utf8_of_ascii hascii, asciiText, String.toList_ofList, List.map_map]
  conv_rhs => rw [← List.map_id b]
  refine List.map_congr_left fun byte hmem => ?_
  rw [Function.comp_apply, hchar byte hmem, UInt8.ofNat_toNat, id]

/-- The query of some pairs. -/
def serialize (pairs : List (String × String)) : String := asciiText (appendPairs [] pairs)

theorem utf8_serialize (pairs : List (String × String)) : utf8 (serialize pairs) = appendPairs [] pairs :=
  utf8_asciiText ascii_appendPairs_nil

/-- **Pairs are read back.** -/
theorem parse_serialize (pairs : List (String × String)) : parse (utf8 (serialize pairs)) = pairs := by
  rw [utf8_serialize, parse_appendPairs]
  rfl

example : serialize [("scope", "a b"), ("é", "&=")] = "scope=a+b&%C3%A9=%26%3D" := by decide +kernel

end Form
