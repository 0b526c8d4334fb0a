/-
Writing JSON without white space, and the round trip: what is written is
read back as the value it was (`parse_render`), and a writer puts no line
feed in it (`lf_not_mem_render`).

The round trip is for values whose numbers are integers and that are not
nested deeper than the reader goes.
-/
import Mathlib.Data.List.TakeDrop
import AgentHarness.Lib.Json.Parse

namespace Json

open Text

/-! ## The writer -/

/-- The decimal digits of a number. -/
def digits (n : Nat) : Bytes := (Nat.toDigits 10 n).map fun c => UInt8.ofNat c.toNat

def Number.render : Number → Bytes
  | .posInt n => digits n.toNat
  | .negInt m => 0x2d :: digits m.toNat
  | .float negative ds exponent =>
    (if negative then [0x2d] else []) ++ digits ds ++ 0x65 ::
      ((if exponent < 0 then [0x2d] else []) ++ digits exponent.natAbs)

def hexDigit (n : Nat) : UInt8 := UInt8.ofNat (if n < 10 then 0x30 + n else 0x61 + (n - 10))

/-- A byte in a string: the quote, the backslash and the control characters
are escaped, everything else stands for itself. -/
def escapeByte (b : UInt8) : Bytes :=
  if b = quote || b = backslash then [backslash, b]
  else if b = 0x08 then [backslash, 0x62]
  else if b = 0x09 then [backslash, 0x74]
  else if b = 0x0a then [backslash, 0x6e]
  else if b = 0x0c then [backslash, 0x66]
  else if b = 0x0d then [backslash, 0x72]
  else if b < 0x20 then [backslash, 0x75, 0x30, 0x30, hexDigit (b.toNat / 16), hexDigit (b.toNat % 16)]
  else [b]

def renderString (s : String) : Bytes := quote :: (utf8 s).flatMap escapeByte ++ [quote]

mutual

def render : Json → Bytes
  | .null => utf8 "null"
  | .bool true => utf8 "true"
  | .bool false => utf8 "false"
  | .num n => n.render
  | .str s => renderString s
  | .arr [] => [openBracket, closeBracket]
  | .arr (v :: vs) => openBracket :: render v ++ renderItems vs
  | .obj [] => [openBrace, closeBrace]
  | .obj ((k, v) :: ms) => openBrace :: renderString k ++ colon :: render v ++ renderMembers ms

/-- The items after the first, and the closing bracket. -/
def renderItems : List Json → Bytes
  | [] => [closeBracket]
  | v :: vs => comma :: render v ++ renderItems vs

/-- The members after the first, and the closing brace. -/
def renderMembers : List (String × Json) → Bytes
  | [] => [closeBrace]
  | (k, v) :: ms => comma :: renderString k ++ colon :: render v ++ renderMembers ms

end

mutual

/-- How many arrays and objects are open at once at most. -/
def depth : Json → Nat
  | .arr vs => depthItems vs + 1
  | .obj ms => depthMembers ms + 1
  | _ => 0

def depthItems : List Json → Nat
  | [] => 0
  | v :: vs => max (depth v) (depthItems vs)

def depthMembers : List (String × Json) → Nat
  | [] => 0
  | (_, v) :: ms => max (depth v) (depthMembers ms)

end

/-- An integer of 64 bits, in the one form the reader gives it. -/
def Number.Integral : Number → Prop
  | .posInt _ => True
  | .negInt m => 0 < m.toNat ∧ m.toNat ≤ 0x8000000000000000
  | .float .. => False

mutual

/-- Every number of the value is an integer. -/
def Integral : Json → Prop
  | .num n => n.Integral
  | .arr vs => IntegralItems vs
  | .obj ms => IntegralMembers ms
  | _ => True

def IntegralItems : List Json → Prop
  | [] => True
  | v :: vs => Integral v ∧ IntegralItems vs

def IntegralMembers : List (String × Json) → Prop
  | [] => True
  | (_, v) :: ms => Integral v ∧ IntegralMembers ms

end

/-! ## Strings -/

theorem hexValue_hexDigit : ∀ n < 16, hexValue (hexDigit n) = some n := by decide

theorem codePoint_ascii : ∀ n < 0x20, codePoint n = [UInt8.ofNat n] := by decide

theorem hex4_hexDigit {n : Nat} (hn : n < 0x20) :
    hex4 0x30 0x30 (hexDigit (n / 16)) (hexDigit (n % 16)) = some n := by
  have h0 : hexValue 0x30 = some 0 := by decide
  simp only [hex4, h0, hexValue_hexDigit _ (show n / 16 < 16 by omega), hexValue_hexDigit _ (Nat.mod_lt n (by decide)),
    Option.pure_def, Option.bind_eq_bind, Option.bind_some, Option.some.injEq]
  omega

theorem stringBody_simpleEscape {e c : UInt8} (he : e ≠ 0x75) (hc : simpleEscape e = some c) (bs : Bytes) :
    stringBody (backslash :: e :: bs) = prepend [c] (stringBody bs) := by
  have hq : backslash ≠ quote := by decide
  rw [stringBody.eq_def]
  simp only [if_neg hq, if_true, if_neg he, hc]

theorem stringBody_hexEscape {b : UInt8} (hb : b < 0x20) (bs : Bytes) :
    stringBody (backslash :: 0x75 :: 0x30 :: 0x30 :: hexDigit (b.toNat / 16) :: hexDigit (b.toNat % 16) :: bs) =
      prepend [b] (stringBody bs) := by
  have hn : b.toNat < 0x20 := hb
  have hlow : isLowSurrogate b.toNat = false := by simp [isLowSurrogate]; omega
  have hhigh : isHighSurrogate b.toNat = false := by simp [isHighSurrogate]; omega
  have hcp : codePoint b.toNat = [b] := by rw [codePoint_ascii _ hn, UInt8.ofNat_toNat]
  have hq : backslash ≠ quote := by decide
  rw [stringBody.eq_def]
  simp only [if_neg hq, hex4_hexDigit hn, hlow, hhigh, hcp, if_true, Bool.false_eq_true, if_false]

/-- One escaped byte is read back as that byte. -/
theorem stringBody_escapeByte (b : UInt8) (bs : Bytes) :
    stringBody (escapeByte b ++ bs) = prepend [b] (stringBody bs) := by
  unfold escapeByte
  split
  · rename_i h
    rcases (by simpa using h : b = quote ∨ b = backslash) with rfl | rfl
    · exact stringBody_simpleEscape (by decide) rfl bs
    · exact stringBody_simpleEscape (by decide) rfl bs
  rename_i hqs
  obtain ⟨hq, hs⟩ : b ≠ quote ∧ b ≠ backslash := by simpa using hqs
  split
  · subst_vars; exact stringBody_simpleEscape (by decide) rfl bs
  split
  · subst_vars; exact stringBody_simpleEscape (by decide) rfl bs
  split
  · subst_vars; exact stringBody_simpleEscape (by decide) rfl bs
  split
  · subst_vars; exact stringBody_simpleEscape (by decide) rfl bs
  split
  · subst_vars; exact stringBody_simpleEscape (by decide) rfl bs
  split
  · rename_i hc
    exact stringBody_hexEscape hc bs
  · rename_i hc
    rw [List.cons_append, List.nil_append, stringBody.eq_def]
    simp only [if_neg hq, if_neg hs, if_neg hc]

theorem stringBody_quote (bs : Bytes) : stringBody (quote :: bs) = some ([], bs) := by
  rw [stringBody.eq_def]
  simp only [if_true]

theorem stringBody_escaped (bs rest : Bytes) :
    stringBody (bs.flatMap escapeByte ++ quote :: rest) = some (bs, rest) := by
  induction bs with
  | nil => exact stringBody_quote rest
  | cons b bs ih => rw [List.flatMap_cons, List.append_assoc, stringBody_escapeByte, ih]; rfl

theorem string_renderString (s : String) (rest : Bytes) :
    string ((utf8 s).flatMap escapeByte ++ quote :: rest) = some (s, rest) := by
  simp only [string, stringBody_escaped, Option.bind_eq_bind, Option.bind_some, ofUtf8?_utf8, Option.pure_def]

/-! ## Numbers -/

theorem digits_lt {n : Nat} (hn : n < 10) : digits n = [UInt8.ofNat (0x30 + n)] := by
  revert n
  decide

theorem digits_step {n : Nat} (hn : 10 ≤ n) : digits n = digits (n / 10) ++ [UInt8.ofNat (0x30 + n % 10)] := by
  have hd : digits (n % 10) = [UInt8.ofNat (0x30 + n % 10)] := digits_lt (Nat.mod_lt _ (by decide))
  simp only [digits] at hd ⊢
  rw [Nat.toDigits_of_base_le (by decide) hn, List.map_append]
  rw [Nat.toDigits_of_lt_base (Nat.mod_lt _ (by decide))] at hd
  rw [← hd]

theorem isDigit_ofNat : ∀ n < 10, isDigit (UInt8.ofNat (0x30 + n)) = true := by decide

theorem toNat_ofNat_digit : ∀ n < 10, (UInt8.ofNat (0x30 + n)).toNat - 0x30 = n := by decide

theorem ofDigits_snoc (ds : Bytes) (d : UInt8) : ofDigits (ds ++ [d]) = 10 * ofDigits ds + (d.toNat - 0x30) := by
  simp [ofDigits]

/-- What a number is written with: digits, at least one, the first of them
zero only for zero. -/
theorem digits_spec (n : Nat) : (∀ b ∈ digits n, isDigit b = true) ∧ ofDigits (digits n) = n ∧
    ∃ d ds, digits n = d :: ds ∧ (d = 0x30 → ds = []) := by
  induction n using Nat.strongRecOn with
  | _ n ih =>
    by_cases hn : n < 10
    · rw [digits_lt hn]
      refine ⟨fun b hb => ?_, ?_, _, [], rfl, fun _ => rfl⟩
      · rw [List.mem_singleton.mp hb]; exact isDigit_ofNat n hn
      · have := toNat_ofNat_digit n hn
        simpa [ofDigits] using this
    · obtain ⟨h₁, h₂, d, ds, h₃, h₄⟩ := ih (n / 10) (by omega)
      have hmod : n % 10 < 10 := Nat.mod_lt _ (by decide)
      rw [digits_step (by omega)]
      refine ⟨fun b hb => ?_, ?_, d, ds ++ [UInt8.ofNat (0x30 + n % 10)], by rw [h₃]; rfl, fun hd => ?_⟩
      · rcases List.mem_append.mp hb with hb | hb
        · exact h₁ b hb
        · rw [List.mem_singleton.mp hb]; exact isDigit_ofNat _ hmod
      · rw [ofDigits_snoc, h₂, toNat_ofNat_digit _ hmod]; omega
      · rw [hd, h₄ hd] at h₃
        have h0 : n / 10 = 0 := by rw [← h₂, h₃]; rfl
        omega

/-- The bytes after a number do not go on with it. -/
def NumberEnds (rest : Bytes) : Prop :=
  ∀ b ∈ rest.head?, isDigit b = false ∧ b ≠ 0x2e ∧ b ≠ 0x65 ∧ b ≠ 0x45

theorem span_digits (n : Nat) {rest : Bytes} (hr : NumberEnds rest) :
    (digits n ++ rest).span isDigit = (digits n, rest) := by
  rw [List.span_eq_takeWhile_dropWhile, List.takeWhile_append_of_pos (digits_spec n).1,
    List.dropWhile_append_of_pos (digits_spec n).1]
  cases rest with
  | nil => simp
  | cons b rest =>
    have hb := (hr b rfl).1
    rw [List.takeWhile_cons_of_neg (by simp [hb]), List.dropWhile_cons_of_neg (by simp [hb]), List.append_nil]

theorem fraction_of_ends {rest : Bytes} (hr : NumberEnds rest) : fraction rest = some ([], rest) := by
  cases rest with
  | nil => rfl
  | cons b rest => rw [fraction, if_neg (hr b rfl).2.1]

theorem exponent_of_ends {rest : Bytes} (hr : NumberEnds rest) : exponent rest = some (none, rest) := by
  cases rest with
  | nil => rfl
  | cons b rest =>
    obtain ⟨-, -, h₁, h₂⟩ := hr b rfl
    rw [exponent.eq_def]
    simp [h₁, h₂]

theorem unsigned_digits (negative : Bool) (n : Nat) {rest : Bytes} (hr : NumberEnds rest) :
    unsigned negative (digits n ++ rest) =
      (Number.ofParts negative (digits n) [] none).map fun x => (x, rest) := by
  obtain ⟨-, -, d, ds, hds, hd⟩ := digits_spec n
  have hlead : ((digits n).isEmpty || ((digits n).head? == some 0x30 && decide ((digits n).length > 1))) = false := by
    rw [hds]
    by_cases h0 : d = 0x30
    · simp [hd h0]
    · simp [h0]
  simp only [unsigned, span_digits n hr, hlead, fraction_of_ends hr, exponent_of_ends hr, Option.bind_eq_bind,
    Option.bind_some, Option.pure_def, Bool.false_eq_true, if_false]
  cases Number.ofParts negative (digits n) [] none <;> rfl

theorem number_render {n : Number} (hn : n.Integral) {rest : Bytes} (hr : NumberEnds rest) :
    number (n.render ++ rest) = some (n, rest) := by
  cases n with
  | posInt n =>
    obtain ⟨hdig, hval, d, ds, hds, -⟩ := digits_spec n.toNat
    have hd : d ≠ 0x2d := by
      intro heq
      subst heq
      have := hdig 0x2d (by rw [hds]; exact List.mem_cons_self)
      exact absurd this (by decide)
    have h := unsigned_digits false n.toNat hr
    simp only [Number.render]
    rw [hds, List.cons_append] at h ⊢
    rw [number, if_neg hd, h, ← hds, Number.ofParts, hval]
    simp [n.toNat_lt]
  | negInt m =>
    obtain ⟨hpos, hle⟩ := hn
    simp only [Number.render, List.cons_append]
    rw [number, if_pos rfl, unsigned_digits true m.toNat hr, Number.ofParts, (digits_spec m.toNat).2.1]
    simp [hpos, hle]
  | float => exact hn.elim

/-! ## Values -/

theorem isSpace_of_isDigit {b : UInt8} (hb : isDigit b = true ∨ b = 0x2d) : isSpace b = false ∧
    b ≠ quote ∧ b ≠ openBracket ∧ b ≠ openBrace ∧ b ≠ 0x6e ∧ b ≠ 0x74 ∧ b ≠ 0x66 ∧ b ≠ closeBracket := by
  rcases hb with hb | rfl
  · have hne : ∀ c : UInt8, isDigit c = false → b ≠ c := fun c hc h => by simp [h, hc] at hb
    simp only [isSpace, Bool.or_eq_false_iff, beq_eq_false_iff_ne]
    exact ⟨⟨⟨⟨hne _ rfl, hne _ rfl⟩, hne _ rfl⟩, hne _ rfl⟩, hne _ rfl, hne _ rfl, hne _ rfl, hne _ rfl, hne _ rfl,
      hne _ rfl, hne _ rfl⟩
  · decide

theorem skipSpace_cons {b : UInt8} (hb : isSpace b = false) (bs : Bytes) : skipSpace (b :: bs) = b :: bs :=
  List.dropWhile_cons_of_neg (by simp [hb])

theorem Number.render_head (n : Number) : ∃ b bs, n.render = b :: bs ∧ (isDigit b = true ∨ b = 0x2d) := by
  have hdigits : ∀ k, ∃ b bs, digits k = b :: bs ∧ isDigit b = true := fun k => by
    obtain ⟨hd, -, d, ds, h, -⟩ := digits_spec k
    exact ⟨d, ds, h, hd d (by rw [h]; exact List.mem_cons_self)⟩
  cases n with
  | posInt n =>
    obtain ⟨b, bs, h, hb⟩ := hdigits n.toNat
    exact ⟨b, bs, h, .inl hb⟩
  | negInt m => exact ⟨_, _, rfl, .inr rfl⟩
  | float negative ds exponent =>
    cases negative with
    | true => exact ⟨_, _, rfl, .inr rfl⟩
    | false =>
      obtain ⟨b, bs, h, hb⟩ := hdigits ds
      exact ⟨b, _, by simp only [Number.render, h]; rfl, .inl hb⟩

/-- What is written begins with something other than white space, and does
not end an array. -/
theorem render_head (v : Json) : ∃ b bs, render v = b :: bs ∧ isSpace b = false ∧ b ≠ closeBracket := by
  cases v with
  | num n =>
    obtain ⟨b, bs, h, hb⟩ := n.render_head
    exact ⟨b, bs, by rw [render, h], (isSpace_of_isDigit hb).1, (isSpace_of_isDigit hb).2.2.2.2.2.2.2⟩
  | null => exact ⟨_, _, rfl, rfl, by decide⟩
  | bool b => cases b <;> exact ⟨_, _, rfl, rfl, by decide⟩
  | str s => exact ⟨_, _, rfl, rfl, by decide⟩
  | arr vs => cases vs <;> exact ⟨_, _, rfl, rfl, by decide⟩
  | obj ms => cases ms <;> exact ⟨_, _, rfl, rfl, by decide⟩

theorem literal_append (name rest : Bytes) : literal name (name ++ rest) = some rest := by
  simp [literal]

/-! ## Items and members -/

/-- What may follow a value: a comma, a closing byte or nothing. -/
theorem numberEnds_cons {b : UInt8} (hb : b = comma ∨ b = closeBracket ∨ b = closeBrace) (rest : Bytes) :
    NumberEnds (b :: rest) := by
  intro c hc
  obtain rfl : b = c := by simpa using hc
  rcases hb with rfl | rfl | rfl <;> decide

/-- Some texts, each after a comma, and the closing byte. -/
def separated (close : UInt8) : List Bytes → Bytes
  | [] => [close]
  | x :: xs => comma :: x ++ separated close xs

section
variable {α : Type} (item : Bytes → Option (α × Bytes)) (enc : α → Bytes) {close : UInt8}

/-- If each item is read back where a comma or the closing byte follows it,
then so are all of them. -/
theorem itemsTail_separated (hclose : isSpace close = false) (hne : comma ≠ close) (rest : Bytes) (xs : List α) :
    ∀ (x : α) (bound : Nat), xs.length < bound →
      (∀ y ∈ x :: xs, ∀ b r, b = comma ∨ b = close → item (enc y ++ b :: r) = some (y, b :: r)) →
      itemsTail item close bound (enc x ++ (separated close (xs.map enc) ++ rest)) = some (x :: xs, rest) := by
  induction xs with
  | nil =>
    intro x bound hb hitem
    obtain ⟨bound, rfl⟩ : ∃ n, bound = n + 1 := ⟨bound - 1, by omega⟩
    have h := hitem x List.mem_cons_self close rest (.inr rfl)
    simp only [List.map_nil, separated, List.cons_append, List.nil_append]
    rw [itemsTail, h]
    simp only [skipSpace_cons hclose, if_true]
  | cons y ys ih =>
    intro x bound hb hitem
    obtain ⟨bound, rfl⟩ : ∃ n, bound = n + 1 := ⟨bound - 1, by omega⟩
    have h := hitem x List.mem_cons_self comma (enc y ++ separated close (ys.map enc) ++ rest) (.inl rfl)
    have hys := ih y bound (by simpa using hb) fun z hz => hitem z (List.mem_cons_of_mem _ hz)
    simp only [List.map_cons, separated, List.cons_append]
    rw [itemsTail, h]
    simp only [skipSpace_cons (show isSpace comma = false by rfl), if_neg hne, if_true, List.append_assoc, hys]

theorem items_separated (hclose : isSpace close = false) (hne : comma ≠ close) (rest : Bytes) (x : α) (xs : List α)
    (hhead : ∃ b bs, enc x = b :: bs ∧ isSpace b = false ∧ b ≠ close)
    (hitem : ∀ y ∈ x :: xs, ∀ b r, b = comma ∨ b = close → item (enc y ++ b :: r) = some (y, b :: r)) :
    items item close (enc x ++ (separated close (xs.map enc) ++ rest)) = some (x :: xs, rest) := by
  have hlen : ∀ ys : List α, ys.length < (separated close (ys.map enc)).length := fun ys => by
    induction ys with
    | nil => exact Nat.one_pos
    | cons y ys ih => simp only [List.map_cons, separated, List.length_cons, List.length_append]; omega
  have htail := itemsTail_separated item enc hclose hne rest xs x
    (enc x ++ (separated close (xs.map enc) ++ rest)).length
    (by have := hlen xs; simp only [List.length_append]; omega) hitem
  obtain ⟨b, bs, he, hs, hb⟩ := hhead
  rw [he, List.cons_append] at htail ⊢
  simp only [items, skipSpace_cons hs, if_neg hb, htail]

end

theorem renderItems_eq (vs : List Json) : renderItems vs = separated closeBracket (vs.map render) := by
  induction vs with
  | nil => rfl
  | cons v vs ih => simp only [renderItems, List.map_cons, separated, ih]

def renderMember (m : String × Json) : Bytes := renderString m.1 ++ colon :: render m.2

theorem renderMembers_eq (ms : List (String × Json)) :
    renderMembers ms = separated closeBrace (ms.map renderMember) := by
  induction ms with
  | nil => rfl
  | cons m ms ih => simp [renderMembers, List.map_cons, separated, ih, renderMember]

/-! ## The round trip -/

/-- A value is read back wherever it is written. -/
def ReadBack (d : Nat) (v : Json) : Prop :=
  ∀ rest, NumberEnds rest → value d (render v ++ rest) = some (v, rest)

/-- A scalar is read back at any depth. -/
theorem ReadBack.scalar {v : Json} {b : UInt8} {bs : Bytes} (d : Nat) (hv : render v = b :: bs)
    (hs : isSpace b = false) (h₁ : b ≠ openBracket) (h₂ : b ≠ openBrace)
    (h : ∀ rest, NumberEnds rest → Json.scalar b (bs ++ rest) = some (v, rest)) : ReadBack d v := by
  intro rest hr
  rw [hv, List.cons_append]
  cases d with
  | zero => simp only [value, skipSpace_cons hs, h₁, h₂, decide_false, Bool.or_self, Bool.false_eq_true, if_false, h rest hr]
  | succ d => simp only [value, skipSpace_cons hs, if_neg h₁, if_neg h₂, h rest hr]

theorem readBack_num {n : Number} (hn : n.Integral) (d : Nat) : ReadBack d (.num n) := by
  obtain ⟨b, bs, h, hb⟩ := n.render_head
  obtain ⟨hs, h₁, h₂, h₃, h₄, h₅, h₆, -⟩ := isSpace_of_isDigit hb
  refine .scalar d (by rw [render, h]) hs h₂ h₃ fun rest hr => ?_
  have hnum := number_render hn hr
  rw [h, List.cons_append] at hnum
  simp only [Json.scalar, if_neg h₁, if_neg h₄, if_neg h₅, if_neg h₆, hnum, Option.map_some]

theorem readBack_str (s : String) (d : Nat) : ReadBack d (.str s) := by
  refine .scalar d rfl rfl (by decide) (by decide) fun rest _ => ?_
  show Json.scalar quote (((utf8 s).flatMap escapeByte ++ [quote]) ++ rest) = _
  rw [List.append_assoc, List.singleton_append]
  simp only [Json.scalar, if_true, string_renderString, Option.map_some]

theorem readBack_null (d : Nat) : ReadBack d .null := by
  refine .scalar d (show render .null = 0x6e :: utf8 "ull" from rfl) rfl (by decide) (by decide) fun rest _ => ?_
  simp [Json.scalar, quote, literal_append]

theorem readBack_bool (b : Bool) (d : Nat) : ReadBack d (.bool b) := by
  cases b with
  | true =>
    refine .scalar d (show render (.bool true) = 0x74 :: utf8 "rue" from rfl) rfl (by decide) (by decide) fun rest _ => ?_
    simp [Json.scalar, quote, literal_append]
  | false =>
    refine .scalar d (show render (.bool false) = 0x66 :: utf8 "alse" from rfl) rfl (by decide) (by decide)
      fun rest _ => ?_
    simp [Json.scalar, quote, literal_append]

theorem readBack_arr {vs : List Json} {d : Nat} (h : ∀ v ∈ vs, ReadBack d v) : ReadBack (d + 1) (.arr vs) := by
  intro rest hr
  have hopen : isSpace openBracket = false := rfl
  cases vs with
  | nil => simp [render, value, skipSpace_cons hopen, items, skipSpace_cons (show isSpace closeBracket = false by rfl)]
  | cons v vs =>
    have hitems := items_separated (value d) render (show isSpace closeBracket = false by rfl) (by decide) rest v vs
      (render_head v) fun y hy b r hb => h y hy _ (numberEnds_cons (by rcases hb with hb | hb <;> simp [hb]) r)
    rw [render, renderItems_eq, List.append_assoc, List.cons_append]
    simp only [value, skipSpace_cons hopen, if_true, hitems, Option.map_some]

theorem member_renderMember {m : String × Json} {d : Nat} (h : ReadBack d m.2) {b : UInt8}
    (hb : b = comma ∨ b = closeBrace) (rest : Bytes) :
    member (value d) (renderMember m ++ b :: rest) = some (m, b :: rest) := by
  have hv := h (b :: rest) (numberEnds_cons (by rcases hb with hb | hb <;> simp [hb]) rest)
  have hm : renderMember m ++ b :: rest =
      quote :: ((utf8 m.1).flatMap escapeByte ++ quote :: colon :: (render m.2 ++ b :: rest)) := by
    simp [renderMember, renderString]
  rw [hm]
  simp only [member, skipSpace_cons (show isSpace quote = false by rfl), if_true, string_renderString,
    skipSpace_cons (show isSpace colon = false by rfl), hv, Option.map_some]

theorem readBack_obj {ms : List (String × Json)} {d : Nat} (h : ∀ m ∈ ms, ReadBack d m.2) :
    ReadBack (d + 1) (.obj ms) := by
  intro rest hr
  have hopen : isSpace openBrace = false := rfl
  have hne : openBrace ≠ openBracket := by decide
  cases ms with
  | nil =>
    simp [render, value, skipSpace_cons hopen, if_neg hne, items, skipSpace_cons (show isSpace closeBrace = false by rfl)]
  | cons m ms =>
    have hitems := items_separated (member (value d)) renderMember (show isSpace closeBrace = false by rfl) (by decide)
      rest m ms ⟨_, _, rfl, rfl, by decide⟩ fun y hy b r hb => member_renderMember (h y hy) hb r
    have hm : render (.obj (m :: ms)) ++ rest = openBrace :: (renderMember m ++ (separated closeBrace (ms.map renderMember) ++ rest)) := by
      simp [render, renderMembers_eq, renderMember]
    rw [hm]
    simp only [value, skipSpace_cons hopen, if_neg hne, if_true, hitems, Option.map_some]

mutual

theorem readBack : ∀ (v : Json) (d : Nat), v.Integral → v.depth ≤ d → ReadBack d v
  | .null, d, _, _ => readBack_null d
  | .bool b, d, _, _ => readBack_bool b d
  | .num _, d, hn, _ => readBack_num hn d
  | .str s, d, _, _ => readBack_str s d
  | .arr vs, d + 1, hi, hd => readBack_arr (readBack_items vs d hi (Nat.le_of_succ_le_succ hd))
  | .obj ms, d + 1, hi, hd => readBack_obj (readBack_members ms d hi (Nat.le_of_succ_le_succ hd))

theorem readBack_items : ∀ (vs : List Json) (d : Nat), IntegralItems vs → depthItems vs ≤ d → ∀ v ∈ vs, ReadBack d v
  | [], _, _, _ => fun _ h => nomatch h
  | v :: vs, d, hi, hd => List.forall_mem_cons.mpr
      ⟨readBack v d hi.1 (Nat.le_trans (Nat.le_max_left ..) hd),
        readBack_items vs d hi.2 (Nat.le_trans (Nat.le_max_right ..) hd)⟩

theorem readBack_members : ∀ (ms : List (String × Json)) (d : Nat), IntegralMembers ms → depthMembers ms ≤ d →
    ∀ m ∈ ms, ReadBack d m.2
  | [], _, _, _ => fun _ h => nomatch h
  | (_, v) :: ms, d, hi, hd => List.forall_mem_cons.mpr
      ⟨readBack v d hi.1 (Nat.le_trans (Nat.le_max_left ..) hd),
        readBack_members ms d hi.2 (Nat.le_trans (Nat.le_max_right ..) hd)⟩

end

/-- **The round trip.** -/
theorem parse_render {v : Json} (hi : v.Integral) (hd : v.depth ≤ maxDepth) : parse (render v) = some v := by
  have h := readBack v maxDepth hi hd [] (fun b hb => nomatch hb)
  rw [List.append_nil] at h
  simp only [parse, h]
  rfl

/-! ## One line -/

theorem hexDigit_ge : ∀ n < 16, 0x20 ≤ hexDigit n := by decide

theorem ge_of_all {l : Bytes} (h : l.all (0x20 ≤ ·) = true) {c : UInt8} (hc : c ∈ l) : 0x20 ≤ c := by
  simpa using List.all_eq_true.mp h c hc

theorem escapeByte_ge {b c : UInt8} (hc : c ∈ escapeByte b) : 0x20 ≤ c := by
  unfold escapeByte at hc
  split at hc
  · rename_i h
    rcases (by simpa using h : b = quote ∨ b = backslash) with rfl | rfl <;>
      exact ge_of_all (by decide) hc
  repeat' split at hc
  · exact ge_of_all (by decide) hc
  · exact ge_of_all (by decide) hc
  · exact ge_of_all (by decide) hc
  · exact ge_of_all (by decide) hc
  · exact ge_of_all (by decide) hc
  · rename_i hb
    have hn : b.toNat < 0x20 := hb
    simp only [List.mem_cons, List.not_mem_nil, or_false] at hc
    rcases hc with rfl | rfl | rfl | rfl | rfl | rfl
    · decide
    · decide
    · decide
    · decide
    · exact hexDigit_ge _ (by omega)
    · exact hexDigit_ge _ (by omega)
  · rename_i hb
    rw [List.mem_singleton.mp hc]
    exact UInt8.not_lt.mp hb

theorem renderString_ge {s : String} {c : UInt8} (hc : c ∈ renderString s) : 0x20 ≤ c := by
  simp only [renderString, List.mem_append, List.mem_cons, List.mem_flatMap, List.not_mem_nil, or_false] at hc
  rcases hc with (rfl | ⟨b, -, hb⟩) | rfl
  · decide
  · exact escapeByte_ge hb
  · decide

theorem digits_ge {n : Nat} {c : UInt8} (hc : c ∈ digits n) : 0x20 ≤ c := by
  have hd := (digits_spec n).1 c hc
  simp only [isDigit, Bool.and_eq_true, decide_eq_true_eq] at hd
  exact UInt8.le_trans (by decide) hd.1

theorem Number.render_ge {n : Number} {c : UInt8} (hc : c ∈ n.render) : 0x20 ≤ c := by
  cases n with
  | posInt n => exact digits_ge hc
  | negInt m =>
    rcases List.mem_cons.mp hc with rfl | hc
    · decide
    · exact digits_ge hc
  | float negative ds exponent =>
    simp only [Number.render, List.mem_append, List.mem_cons] at hc
    rcases hc with (hc | hc) | rfl | hc | hc
    · split at hc
      · rw [List.mem_singleton.mp hc]; decide
      · exact nomatch hc
    · exact digits_ge hc
    · decide
    · split at hc
      · rw [List.mem_singleton.mp hc]; decide
      · exact nomatch hc
    · exact digits_ge hc

theorem separated_ge {close c : UInt8} {xs : List Bytes} (hclose : 0x20 ≤ close)
    (h : ∀ x ∈ xs, ∀ c ∈ x, 0x20 ≤ c) (hc : c ∈ separated close xs) : 0x20 ≤ c := by
  induction xs with
  | nil => rw [List.mem_singleton.mp hc]; exact hclose
  | cons x xs ih =>
    simp only [separated, List.cons_append, List.mem_cons, List.mem_append] at hc
    rcases hc with rfl | hc | hc
    · decide
    · exact h x List.mem_cons_self c hc
    · exact ih (fun y hy => h y (List.mem_cons_of_mem _ hy)) hc

mutual

/-- A writer puts no control character in what it writes. -/
theorem render_ge : ∀ (v : Json), ∀ c ∈ render v, 0x20 ≤ c
  | .null => fun _ hc => ge_of_all (by decide) hc
  | .bool true => fun _ hc => ge_of_all (by decide) hc
  | .bool false => fun _ hc => ge_of_all (by decide) hc
  | .num _ => fun _ hc => Number.render_ge hc
  | .str _ => fun _ hc => renderString_ge hc
  | .arr [] => fun _ hc => ge_of_all (by decide) hc
  | .arr (v :: vs) => fun c hc => by
    simp only [render, renderItems_eq, List.cons_append, List.mem_cons, List.mem_append] at hc
    rcases hc with rfl | hc | hc
    · decide
    · exact render_ge v c hc
    · exact separated_ge (by decide) (List.forall_mem_map.mpr (renderItems_ge vs)) hc
  | .obj [] => fun _ hc => ge_of_all (by decide) hc
  | .obj ((k, v) :: ms) => fun c hc => by
    simp only [render, renderMembers_eq, List.cons_append, List.mem_cons, List.mem_append] at hc
    rcases hc with rfl | (hc | rfl | hc) | hc
    · decide
    · exact renderString_ge hc
    · decide
    · exact render_ge v c hc
    · exact separated_ge (by decide) (List.forall_mem_map.mpr (renderMembers_ge ms)) hc

theorem renderItems_ge : ∀ (vs : List Json), ∀ v ∈ vs, ∀ c ∈ render v, 0x20 ≤ c
  | [] => fun _ h => nomatch h
  | v :: vs => List.forall_mem_cons.mpr ⟨render_ge v, renderItems_ge vs⟩

theorem renderMembers_ge : ∀ (ms : List (String × Json)), ∀ m ∈ ms, ∀ c ∈ renderMember m, 0x20 ≤ c
  | [] => fun _ h => nomatch h
  | (k, v) :: ms => by
    refine List.forall_mem_cons.mpr ⟨fun c hc => ?_, renderMembers_ge ms⟩
    simp only [renderMember, List.mem_append, List.mem_cons] at hc
    rcases hc with hc | rfl | hc
    · exact renderString_ge hc
    · decide
    · exact render_ge v c hc

end

theorem lf_not_mem_render (v : Json) : 0x0a ∉ render v := fun h => absurd (render_ge v _ h) (by decide)

end Json
