/-
The names and values of a query in bytes, before they are read as text. Where
the whole query is decoded to valid UTF-8, so is each of them, and reading it
loses nothing: an ASCII byte parts valid bytes from valid bytes, and neither
`&` nor `=` nor `+` is ever part of an escape.
-/
import Mathlib.Data.List.TakeDrop
import Mathlib.Data.List.TakeWhile
import AgentHarness.Lib.Form
import AgentHarness.Lib.Utf8

namespace Form

open Text

/-! ## Text that is valid -/

/-- How many of at most `n` characters stand for bytes that begin none. -/
def replacements : Nat → Bytes → Nat
  | 0, _ => 0
  | _ + 1, [] => 0
  | n + 1, b =>
    match decodeChar? b with
    | some c => replacements n (b.drop c.utf8Size)
    | none => replacements n (b.drop (invalidLength b)) + 1

/-- How many characters are put in for some bytes. -/
def replaced (b : Bytes) : Nat := replacements b.length b

section
variable {b : Bytes} {c : Char} {n : Nat}

theorem toArray_eq (b : Bytes) : (⟨b.toArray⟩ : ByteArray) = b.toByteArray := ByteArray.ext List.data_toByteArray.symm

theorem decodeChar?_encode (c : Char) (rest : Bytes) : decodeChar? (String.utf8EncodeChar c ++ rest) = some c := by
  rw [decodeChar?, toArray_eq, List.toByteArray_append]
  exact ByteArray.utf8DecodeChar?_utf8EncodeChar_append

theorem eq_of_decodeChar? (h : decodeChar? b = some c) : b = String.utf8EncodeChar c ++ b.drop c.utf8Size := by
  rw [decodeChar?, toArray_eq] at h
  obtain ⟨rest, hrest⟩ := ByteArray.exists_of_utf8DecodeChar?_eq_some h
  have hb : b = String.utf8EncodeChar c ++ rest.data.toList := by
    have hlist := congrArg (fun bytes : ByteArray => bytes.data.toList) hrest
    simpa using hlist
  have hdrop : b.drop c.utf8Size = rest.data.toList := by
    rw [hb, ← String.length_utf8EncodeChar c, List.drop_left]
  rw [hdrop]
  exact hb

theorem validUtf8_encode (c : Char) (rest : Bytes) : ValidUtf8 (String.utf8EncodeChar c ++ rest) ↔ ValidUtf8 rest := by
  constructor
  · intro h
    obtain ⟨cs, hcs⟩ := validUtf8_iff.mp h
    have hdecode := decodeChar?_encode c rest
    cases cs with
    | nil =>
      rw [hcs] at hdecode
      cases hdecode
    | cons d cs =>
      rw [hcs, List.flatMap_cons, decodeChar?_encode] at hdecode
      cases hdecode
      exact validUtf8_iff.mpr ⟨cs, List.append_cancel_left hcs⟩
  · intro h
    obtain ⟨cs, rfl⟩ := validUtf8_iff.mp h
    exact validUtf8_iff.mpr ⟨c :: cs, rfl⟩

/-- **Nothing is replaced** exactly in valid bytes. -/
theorem replacements_eq_zero (hn : b.length ≤ n) : replacements n b = 0 ↔ ValidUtf8 b := by
  have hnil : ValidUtf8 [] := validUtf8_iff.mpr ⟨[], rfl⟩
  induction n generalizing b with
  | zero =>
    rw [List.eq_nil_of_length_eq_zero (Nat.le_zero.mp hn)]
    exact ⟨fun _ => hnil, fun _ => rfl⟩
  | succ n ih =>
    cases b with
    | nil => exact ⟨fun _ => hnil, fun _ => rfl⟩
    | cons x b =>
      cases hdecode : decodeChar? (x :: b) with
      | some c =>
        have heq := eq_of_decodeChar? hdecode
        have hshort : ((x :: b).drop c.utf8Size).length ≤ n := by
          have hpos := c.utf8Size_pos
          rw [List.length_drop]
          omega
        have hsame : ValidUtf8 (x :: b) ↔ ValidUtf8 ((x :: b).drop c.utf8Size) := by
          conv => lhs; rw [heq]
          exact validUtf8_encode c _
        simp only [replacements, hdecode]
        exact (ih hshort).trans hsame.symm
      | none =>
        simp only [replacements, hdecode]
        refine ⟨fun h => absurd h (Nat.succ_ne_zero _), fun h => ?_⟩
        obtain ⟨cs, hcs⟩ := validUtf8_iff.mp h
        cases cs with
        | nil => cases hcs
        | cons c cs =>
          rw [hcs, List.flatMap_cons, decodeChar?_encode] at hdecode
          cases hdecode

theorem replaced_eq_zero : replaced b = 0 ↔ ValidUtf8 b := replacements_eq_zero (Nat.le_refl _)

theorem lossyChars_encode {cs : List Char} (hn : cs.length ≤ n) : lossyChars n (cs.flatMap String.utf8EncodeChar) = cs := by
  induction cs generalizing n with
  | nil => cases n <;> rfl
  | cons c cs ih =>
    cases n with
    | zero => cases hn
    | succ n =>
      have hdecode := decodeChar?_encode c (cs.flatMap String.utf8EncodeChar)
      have hdrop : (String.utf8EncodeChar c ++ cs.flatMap String.utf8EncodeChar).drop c.utf8Size =
          cs.flatMap String.utf8EncodeChar := by
        rw [← String.length_utf8EncodeChar c, List.drop_left]
      rw [List.flatMap_cons]
      generalize String.utf8EncodeChar c ++ cs.flatMap String.utf8EncodeChar = b at hdecode hdrop ⊢
      cases b with
      | nil => cases hdecode
      | cons x b =>
        simp only [lossyChars, hdecode, hdrop]
        rw [ih (Nat.le_of_succ_le_succ hn)]

/-- **What is read is lossless** exactly for valid bytes. -/
theorem utf8_fromUtf8Lossy : utf8 (fromUtf8Lossy b) = b ↔ ValidUtf8 b := by
  constructor
  · intro h
    rw [← h, ValidUtf8, ofUtf8?_utf8]
    rfl
  · intro h
    obtain ⟨cs, rfl⟩ := validUtf8_iff.mp h
    have hlength : cs.length ≤ (cs.flatMap String.utf8EncodeChar).length := by
      clear h
      induction cs with
      | nil => exact Nat.le_refl 0
      | cons c cs ih =>
        have hpos := c.utf8Size_pos
        rw [List.flatMap_cons, List.length_append, String.length_utf8EncodeChar, List.length_cons]
        omega
    rw [fromUtf8Lossy, lossyChars_encode hlength, utf8_ofList]

end

/-! ## Names and values in bytes -/

/-- A name or a value before it is read. -/
def decoded (b : Bytes) : Bytes := percentDecode (b.map fun byte => if byte = 0x2B then 0x20 else byte)

/-- A piece, up to its first `=` and after it. -/
def pairBytes (piece : Bytes) : Bytes × Bytes :=
  match piece.span (· ≠ 0x3D) with
  | (name, []) => (decoded name, decoded [])
  | (name, _ :: value) => (decoded name, decoded value)

def parseBytes (query : Bytes) : List (Bytes × Bytes) := ((query.splitOn 0x26).filter (!·.isEmpty)).map pairBytes

/-- The values a name has. -/
def valuesBytes (pairs : List (Bytes × Bytes)) (name : Bytes) : List Bytes := (pairs.filter (·.1 == name)).map (·.2)

section
variable {x : UInt8} {name piece : Bytes}

theorem span_plain (h : x ∉ piece) : piece.span (· ≠ x) = (piece, []) := by
  have hall : ∀ y ∈ piece, decide (y ≠ x) = true := fun y hy => decide_eq_true fun heq => h (heq ▸ hy)
  rw [List.span_eq_takeWhile_dropWhile, List.takeWhile_eq_self_iff.mpr hall, List.dropWhile_eq_nil_iff.mpr hall]

theorem span_append_cons (h : x ∉ name) (value : Bytes) : (name ++ x :: value).span (· ≠ x) = (name, x :: value) := by
  have hall : ∀ y ∈ name, decide (y ≠ x) = true := fun y hy => decide_eq_true fun heq => h (heq ▸ hy)
  rw [List.span_eq_takeWhile_dropWhile, List.takeWhile_append_of_pos hall, List.dropWhile_append_of_pos hall]
  simp

theorem pairBytes_plain (h : 0x3D ∉ piece) : pairBytes piece = (decoded piece, decoded []) := by
  rw [pairBytes, span_plain h]

theorem pairBytes_equals (h : 0x3D ∉ name) (value : Bytes) :
    pairBytes (name ++ 0x3D :: value) = (decoded name, decoded value) := by
  rw [pairBytes, span_append_cons h]

theorem pair_eq (piece : Bytes) : pair piece = (pairBytes piece).map fromUtf8Lossy fromUtf8Lossy := by
  by_cases h : 0x3D ∈ piece
  · obtain ⟨name, value, rfl, hname⟩ := List.eq_append_cons_of_mem h
    rw [pairBytes_equals hname, pair, span_append_cons hname]
    rfl
  · rw [pairBytes_plain h, pair, span_plain h]
    rfl

end

/-! ## Escapes in parts -/

/-- A byte that is itself wherever it stands: ASCII, and in no escape. -/
structure Mark (x : UInt8) : Prop where
  ascii : x < 0x80
  plain : x ≠ percent
  digit : hexDigit? x = none

/-- Bytes with whole escapes, which are those of a text. -/
def Clean (b : Bytes) : Prop := Escaped b ∧ ValidUtf8 (percentDecode b)

section
variable {a b q : Bytes} {x : UInt8}

/-- Bytes with whole escapes are taken apart from the left. -/
@[elab_as_elim]
theorem Escaped.induction {P : ∀ q, Escaped q → Prop} (nil : P [] escaped_nil)
    (byte : ∀ x rest (hx : x ≠ percent) (hrest : Escaped rest), P rest hrest → P (x :: rest) ((escaped_byte hx).mpr hrest))
    (escape : ∀ c d high low rest (hc : hexDigit? c = some high) (hd : hexDigit? d = some low) (hrest : Escaped rest),
      P rest hrest → P (percent :: c :: d :: rest) ((escaped_escape hc hd).mpr hrest)) (q : Bytes) (h : Escaped q) : P q h := by
  generalize hn : q.length = n
  induction n using Nat.strongRecOn generalizing q with
  | ind n ih =>
    cases q with
    | nil => exact nil
    | cons x rest =>
      rw [List.length_cons] at hn
      by_cases hx : x = percent
      · subst hx
        obtain ⟨c, d, rest', rfl, hc, hd, hrest⟩ := escaped_percent.mp h
        obtain ⟨high, hhigh⟩ := Option.isSome_iff_exists.mp hc
        obtain ⟨low, hlow⟩ := Option.isSome_iff_exists.mp hd
        rw [List.length_cons, List.length_cons] at hn
        exact escape c d high low rest' hhigh hlow hrest (ih rest'.length (by omega) rest' hrest rfl)
      · have hrest := (escaped_byte hx).mp h
        exact byte x rest hx hrest (ih rest.length (by omega) rest hrest rfl)

theorem escaped_append (h : Escaped a) : Escaped (a ++ b) ↔ Escaped b := by
  induction a, h using Escaped.induction with
  | nil => rfl
  | byte x rest hx _ ih => rw [List.cons_append, escaped_byte hx, ih]
  | escape c d high low rest hc hd _ ih => rw [List.cons_append, List.cons_append, List.cons_append, escaped_escape hc hd, ih]

theorem percentDecode_append (h : Escaped a) (b : Bytes) : percentDecode (a ++ b) = percentDecode a ++ percentDecode b := by
  induction a, h using Escaped.induction with
  | nil => rfl
  | byte x rest hx _ ih => rw [List.cons_append, percentDecode_byte hx, percentDecode_byte hx, ih, List.cons_append]
  | escape c d high low rest hc hd _ ih =>
    rw [List.cons_append, List.cons_append, List.cons_append, percentDecode_escape hc hd, percentDecode_escape hc hd, ih,
      List.cons_append]

/-- No escape goes over a mark. -/
theorem Escaped.left (hx : Mark x) (h : Escaped (a ++ x :: b)) : Escaped a := by
  generalize hq : a ++ x :: b = q at h
  induction q, h using Escaped.induction generalizing a with
  | nil => simp at hq
  | byte y rest hy _ ih =>
    cases a with
    | nil => exact escaped_nil
    | cons z a =>
      simp only [List.cons_append, List.cons.injEq] at hq
      obtain ⟨rfl, hq⟩ := hq
      exact (escaped_byte hy).mpr (ih hq)
  | escape c d high low rest hc hd _ ih =>
    have hdigit : ∀ y digit, hexDigit? y = some digit → x ≠ y := by
      rintro y digit hy rfl
      rw [hx.digit] at hy
      cases hy
    match a with
    | [] => exact absurd (List.cons.inj hq).1 hx.plain
    | [_] => exact absurd (List.cons.inj (List.cons.inj hq).2).1 (hdigit _ _ hc)
    | [_, _] => exact absurd (List.cons.inj (List.cons.inj (List.cons.inj hq).2).2).1 (hdigit _ _ hd)
    | _ :: _ :: _ :: a =>
      simp only [List.cons_append, List.cons.injEq] at hq
      obtain ⟨rfl, rfl, rfl, hq⟩ := hq
      exact (escaped_escape hc hd).mpr (ih hq)

theorem escaped_mark (hx : Mark x) : Escaped (a ++ x :: b) ↔ Escaped a ∧ Escaped b := by
  constructor
  · intro h
    have ha := h.left hx
    exact ⟨ha, (escaped_byte hx.plain).mp ((escaped_append ha).mp h)⟩
  · intro h
    exact (escaped_append h.1).mpr ((escaped_byte hx.plain).mpr h.2)

theorem percentDecode_mark (hx : Mark x) (h : Escaped a) (b : Bytes) :
    percentDecode (a ++ x :: b) = percentDecode a ++ x :: percentDecode b := by
  rw [percentDecode_append h, percentDecode_byte hx.plain]

/-- **A mark parts clean bytes** from clean bytes. -/
theorem clean_mark (hx : Mark x) : Clean (a ++ x :: b) ↔ Clean a ∧ Clean b := by
  rw [Clean, escaped_mark hx, and_assoc]
  constructor
  · intro h
    obtain ⟨ha, hb, hvalid⟩ := h
    rw [percentDecode_mark hx ha, validUtf8_around hx.ascii] at hvalid
    exact ⟨⟨ha, hvalid.1⟩, hb, hvalid.2⟩
  · intro h
    obtain ⟨⟨ha, hvalid⟩, hb, hvalid'⟩ := h
    rw [percentDecode_mark hx ha, validUtf8_around hx.ascii]
    exact ⟨ha, hb, hvalid, hvalid'⟩

/-- What holds of bytes as of the parts at a mark holds of all the pieces. -/
theorem forall_splitOn {P : Bytes → Prop} (h : ∀ a b, P (a ++ x :: b) ↔ P a ∧ P b) (q : Bytes) :
    P q ↔ ∀ piece ∈ q.splitOn x, P piece := by
  generalize hn : q.length = n
  induction n using Nat.strongRecOn generalizing q with
  | ind n ih =>
    by_cases hx : x ∈ q
    · obtain ⟨a, b, rfl, ha⟩ := List.eq_append_cons_of_mem hx
      have hlt : b.length < n := by
        rw [← hn, List.length_append, List.length_cons]
        omega
      rw [List.splitOn_append_cons_self_of_not_mem ha, List.forall_mem_cons, h, ih b.length hlt b rfl]
    · rw [List.splitOn_eq_singleton hx]
      simp

/-! ## The pieces of a query -/

theorem mark_and : Mark 0x26 := ⟨by decide, by decide, by decide⟩
theorem mark_equals : Mark 0x3D := ⟨by decide, by decide, by decide⟩
theorem mark_plus : Mark 0x2B := ⟨by decide, by decide, by decide⟩
theorem mark_space : Mark 0x20 := ⟨by decide, by decide, by decide⟩

/-- A space is as clean as a `+`. -/
theorem clean_decoded (h : Escaped q) : ValidUtf8 (decoded q) ↔ Clean q := by
  rw [Clean, and_iff_right h, decoded]
  suffices hfront : ∀ front : Bytes, ValidUtf8 (front ++ percentDecode (q.map fun byte => if byte = 0x2B then 0x20 else byte)) ↔
      ValidUtf8 (front ++ percentDecode q) from hfront []
  induction q, h using Escaped.induction with
  | nil => exact fun _ => Iff.rfl
  | byte x rest hx _ ih =>
    intro front
    rw [percentDecode_byte hx, List.map_cons]
    by_cases hplus : x = 0x2B
    · have hrest := ih []
      rw [List.nil_append, List.nil_append] at hrest
      rw [if_pos hplus, percentDecode_byte mark_space.plain, validUtf8_around mark_space.ascii, hrest, hplus,
        validUtf8_around mark_plus.ascii]
    · have hrest := ih (front ++ [x])
      rw [List.append_assoc, List.append_assoc] at hrest
      rw [if_neg hplus, percentDecode_byte hx]
      exact hrest
  | escape c d high low rest hc hd _ ih =>
    intro front
    have hdigit : ∀ {y digit}, hexDigit? y = some digit → y ≠ 0x2B := by
      rintro y digit hy rfl
      rw [mark_plus.digit] at hy
      cases hy
    have hrest := ih (front ++ [high * 16 + low])
    rw [List.append_assoc, List.append_assoc] at hrest
    have hpercent : percent ≠ 0x2B := by decide
    rw [List.map_cons, List.map_cons, List.map_cons, if_neg hpercent, if_neg (hdigit hc), if_neg (hdigit hd),
      percentDecode_escape hc hd, percentDecode_escape hc hd]
    exact hrest

/-- A piece is clean as its name and its value are. -/
theorem clean_pairBytes {piece : Bytes} (h : Escaped piece) :
    Clean piece ↔ ValidUtf8 (pairBytes piece).1 ∧ ValidUtf8 (pairBytes piece).2 := by
  by_cases hequals : 0x3D ∈ piece
  · obtain ⟨name, value, rfl, hname⟩ := List.eq_append_cons_of_mem hequals
    obtain ⟨hescaped, hescaped'⟩ := (escaped_mark mark_equals).mp h
    rw [clean_mark mark_equals, pairBytes_equals hname, clean_decoded hescaped, clean_decoded hescaped']
  · have hnil : Clean [] := ⟨escaped_nil, validUtf8_iff.mpr ⟨[], rfl⟩⟩
    rw [pairBytes_plain hequals, clean_decoded h, clean_decoded escaped_nil, and_iff_left hnil]

/-- **A query is clean as all its names and values are.** -/
theorem clean_iff (h : Escaped q) : ValidUtf8 (percentDecode q) ↔
    ∀ piece ∈ q.splitOn 0x26, ValidUtf8 (pairBytes piece).1 ∧ ValidUtf8 (pairBytes piece).2 := by
  have hescaped := (forall_splitOn (fun _ _ => escaped_mark mark_and) q).mp h
  have hclean := forall_splitOn (fun _ _ => clean_mark mark_and) q
  rw [Clean, and_iff_right h] at hclean
  rw [hclean]
  exact forall₂_congr fun piece hpiece => clean_pairBytes (hescaped piece hpiece)

/-! ## What is read of a clean query -/

theorem Clean.pairBytes (h : Clean q) {piece : Bytes} (hpiece : piece ∈ q.splitOn 0x26) :
    ValidUtf8 (pairBytes piece).1 ∧ ValidUtf8 (pairBytes piece).2 :=
  (clean_iff h.1).mp h.2 piece hpiece

/-- **The pairs of a clean query are read as they are.** -/
theorem map_parse (h : Clean q) : (parse q).map (Prod.map utf8 utf8) = parseBytes q := by
  rw [parse, parseBytes, List.map_map]
  refine List.map_congr_left fun piece hpiece => ?_
  obtain ⟨hname, hvalue⟩ := h.pairBytes (List.mem_of_mem_filter hpiece)
  rw [Function.comp_apply, pair_eq, Prod.map_map]
  exact Prod.ext (utf8_fromUtf8Lossy.mpr hname) (utf8_fromUtf8Lossy.mpr hvalue)

/-- **So are the values of a name.** -/
theorem map_values (h : Clean q) (name : String) :
    (values (parse q) name).map utf8 = valuesBytes (parseBytes q) (utf8 name) := by
  have hname : ∀ pair : String × String, ((Prod.map utf8 utf8 pair).1 == utf8 name) = (pair.1 == name) := by
    intro pair
    rw [Bool.eq_iff_iff, beq_iff_eq, beq_iff_eq]
    exact ⟨utf8_inj, congrArg utf8⟩
  rw [← map_parse h, values, valuesBytes, List.filter_map, List.map_map, List.map_map]
  simp only [Function.comp_def, hname, Prod.map_snd]

end

end Form
