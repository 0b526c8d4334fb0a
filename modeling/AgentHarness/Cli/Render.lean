/-
What the terminal is sent for a model's text (`render_model_text`): one pass
with a look at the next character, equal to passes that are each read on
their own (`renderModelText_eq`). What is sent has nothing in it that a
terminal acts on, and is sent as it is when it is rendered again.
-/
import AgentHarness.Lib.Utf8

namespace AgentHarness.Cli

open Text

/-! ## The pass -/

def isBidiControl (character : Char) : Bool :=
  let n := character.toNat
  n == 0x61C || (0x200E ≤ n && n ≤ 0x200F) || (0x202A ≤ n && n ≤ 0x202E) || (0x2066 ≤ n && n ≤ 0x2069)

def shouldEscape (character : Char) : Bool := isControl character || isBidiControl character

/-- `'\n' | '\t' | ' '..='~'` -/
def isPlain (character : Char) : Bool :=
  character == '\n' || character == '\t' || (' ' ≤ character && character ≤ '~')

/-- An arm of the match, for a character that is not a carriage return. -/
def renderCharacter (character : Char) : List Char :=
  if isPlain character then [character]
  else if shouldEscape character then escapeUnicode character
  else [character]

/-- The loop: what is pushed for the characters that are left. -/
def renderCharacters : List Char → List Char
  | [] => []
  | '\r' :: '\n' :: characters => '\n' :: renderCharacters characters
  | '\r' :: characters => '\n' :: renderCharacters characters
  | character :: characters => renderCharacter character ++ renderCharacters characters

def renderModelText (text : String) : String :=
  let rendered := renderCharacters text.toList
  String.ofList (if rendered.getLast? == some '\n' then rendered else rendered ++ ['\n'])

/-- The bytes that are reserved, when they are counted in words of up to
`usizeMax` without overflow. -/
def renderCapacity (usizeMax : Nat) (text : String) : Option Nat :=
  let size := text.utf8ByteSize * 6
  if size ≤ usizeMax ∧ size + 1 ≤ usizeMax then some (size + 1) else none

/-! ## Pass by pass -/

/-- Every CR LF is an LF. -/
def crLfToLf : List Char → List Char
  | [] => []
  | '\r' :: '\n' :: text => '\n' :: crLfToLf text
  | character :: text => character :: crLfToLf text

/-- Every CR is an LF. -/
def crToLf (text : List Char) : List Char := text.map fun character => if character = '\r' then '\n' else character

/-- Every control but LF and TAB, and every bidi control, is its escape. -/
def escaped (text : List Char) : List Char :=
  text.flatMap fun character =>
    if (isControl character && character != '\n' && character != '\t') || isBidiControl character then
      escapeUnicode character
    else [character]

/-- With an LF at the end, which is added when there is none. -/
def endedByLf (text : List Char) : List Char := if text.getLast? = some '\n' then text else text ++ ['\n']

theorem crToLf_cons (character : Char) (text : List Char) :
    crToLf (character :: text) = (if character = '\r' then '\n' else character) :: crToLf text := rfl

theorem escaped_cons (character : Char) (text : List Char) :
    escaped (character :: text) = escaped [character] ++ escaped text := by
  simp [escaped]

theorem isPlain_of_not {character : Char} (h : isPlain character = false) : character ≠ '\n' ∧ character ≠ '\t' := by
  constructor <;> intro heq <;> subst heq <;> simp [isPlain] at h

/-- A plain character is neither a bidi control nor a control that is escaped. -/
theorem of_isPlain {character : Char} (h : isPlain character = true) :
    ((isControl character && character != '\n' && character != '\t') || isBidiControl character) = false := by
  simp only [isPlain, Bool.or_eq_true, beq_iff_eq, Bool.and_eq_true, decide_eq_true_eq] at h
  obtain (rfl | rfl) | ⟨hlow, hhigh⟩ := h
  · decide
  · decide
  · have hlow : 32 ≤ character.toNat := hlow
    have hhigh : character.toNat ≤ 126 := hhigh
    have hcontrol : isControl character = false := by simp [isControl]; omega
    have hbidi : isBidiControl character = false := by simp [isBidiControl]; omega
    simp [hcontrol, hbidi]

/-- The arm of the match is what is said of each character by itself. -/
theorem renderCharacter_eq (character : Char) : renderCharacter character = escaped [character] := by
  simp only [renderCharacter, escaped, List.flatMap_cons, List.flatMap_nil, List.append_nil]
  cases hplain : isPlain character with
  | true => simp [of_isPlain hplain]
  | false =>
    obtain ⟨hlf, htab⟩ := isPlain_of_not hplain
    simp [shouldEscape, hlf, htab]

/-- One pass with a look ahead is the three passes, one after the other. -/
theorem renderCharacters_eq (text : List Char) : renderCharacters text = escaped (crToLf (crLfToLf text)) := by
  fun_induction renderCharacters text with
  | case1 => rfl
  | case2 characters ih =>
    rw [ih, crLfToLf, crToLf_cons, escaped_cons]
    rfl
  | case3 characters hnext ih =>
    rw [ih, crLfToLf, crToLf_cons, escaped_cons]
    · rfl
    · intro characters' _ heq
      exact hnext characters' heq
  | case4 character characters hcrlf hcr ih =>
    have hne : character ≠ '\r' := by
      intro heq
      exact hcr heq
    rw [ih, renderCharacter_eq, crLfToLf, crToLf_cons, if_neg hne, escaped_cons character (crToLf _)]
    exact hcrlf

/-- **What is sent to the terminal**: the line ends made LF, every remaining
control and bidi control its escape, every other character as it is, and an
LF at the end when there is none. -/
theorem renderModelText_eq (text : String) :
    renderModelText text = String.ofList (endedByLf (escaped (crToLf (crLfToLf text.toList)))) := by
  simp only [renderModelText, renderCharacters_eq, endedByLf, beq_iff_eq]

/-- An escape sequence, a bidi control and a lone carriage return. -/
example : renderModelText "a\x1b[31m\u202eb\rc\td" = "a\\u\x7b1b\x7d[31m\\u\x7b202e\x7db\nc\td\n" := by decide +kernel

/-! ## What is sent -/

/-- No control but LF and TAB, and no bidi control. -/
def Inert (text : List Char) : Prop :=
  ∀ character ∈ text,
    (isControl character = true → character = '\n' ∨ character = '\t') ∧ isBidiControl character = false

variable {text text' : List Char} {character : Char}

theorem inert_nil : Inert [] := by
  intro character h
  cases h

theorem inert_append : Inert (text ++ text') ↔ Inert text ∧ Inert text' := by
  exact List.forall_mem_append

theorem inert_of_isPlain (h : ∀ character ∈ text, isPlain character = true) : Inert text := by
  intro character hmem
  have hplain := of_isPlain (h character hmem)
  simp only [Bool.or_eq_false_iff, Bool.and_eq_false_iff, bne_eq_false_iff_eq] at hplain
  obtain ⟨(hcontrol | heq) | heq, hbidi⟩ := hplain
  · exact ⟨fun h => absurd h (by simp [hcontrol]), hbidi⟩
  · exact ⟨fun _ => .inl heq, hbidi⟩
  · exact ⟨fun _ => .inr heq, hbidi⟩

theorem inert_plain (h : text.all isPlain = true) : Inert text := inert_of_isPlain (List.all_eq_true.mp h)

/-- An escape is plain. -/
theorem isPlain_escapeUnicode (h : character ∈ escapeUnicode character') : isPlain character = true := by
  simp only [escapeUnicode, List.mem_append, List.mem_cons, List.not_mem_nil, or_false] at h
  obtain ((rfl | rfl | rfl) | hdigit) | rfl := h
  · rfl
  · rfl
  · rfl
  · have hdigits : ∀ digit < 16, isPlain (Nat.digitChar digit) = true := by decide
    obtain ⟨digit, hlt, rfl⟩ := mem_toDigits (by decide) hdigit
    exact hdigits digit hlt
  · rfl

theorem inert_escaped (text : List Char) : Inert (escaped text) := by
  induction text with
  | nil => exact inert_nil
  | cons character text ih =>
    rw [escaped_cons, inert_append]
    refine ⟨?_, ih⟩
    simp only [escaped, List.flatMap_singleton]
    split
    · exact inert_of_isPlain fun _ h => isPlain_escapeUnicode h
    · rename_i hkept
      intro character' hmem
      rw [List.mem_singleton] at hmem
      subst hmem
      simp only [Bool.or_eq_true, Bool.and_eq_true, bne_iff_ne, not_or, not_and, Bool.not_eq_true] at hkept
      refine ⟨?_, hkept.2⟩
      intro hcontrol
      by_cases hlf : character' = '\n'
      · exact .inl hlf
      · exact .inr (by_contra fun htab => hkept.1 ⟨hcontrol, hlf⟩ htab)

theorem inert_endedByLf (h : Inert text) : Inert (endedByLf text) := by
  unfold endedByLf
  split
  · exact h
  · exact inert_append.mpr ⟨h, inert_plain (by decide)⟩

theorem endedByLf_getLast? (text : List Char) : (endedByLf text).getLast? = some '\n' := by
  unfold endedByLf
  split
  · assumption
  · exact List.getLast?_concat

theorem renderModelText_inert (text : String) : Inert (renderModelText text).toList := by
  rw [renderModelText_eq, String.toList_ofList]
  exact inert_endedByLf (inert_escaped _)

theorem renderModelText_getLast? (text : String) : (renderModelText text).toList.getLast? = some '\n' := by
  rw [renderModelText_eq, String.toList_ofList]
  exact endedByLf_getLast? _

/-! ## How long it gets -/

/-- An escape takes at most six bytes for each of the character's own: what
is escaped has two digits, or it takes two bytes itself and has four. -/
theorem length_escapeUnicode_le (h : shouldEscape character = true) :
    (escapeUnicode character).length ≤ 6 * character.utf8Size := by
  have hlength : (escapeUnicode character).length = (Nat.toDigits 16 character.toNat).length + 4 := by
    simp [escapeUnicode]
  have hpos := character.utf8Size_pos
  rw [hlength]
  by_cases hsmall : character.toNat < 256
  · have hdigits : (Nat.toDigits 16 character.toNat).length ≤ 2 :=
      (Nat.length_toDigits_le_iff (by decide) (by decide)).mpr hsmall
    omega
  · have hbidi : isBidiControl character = true := by
      simp [shouldEscape, isControl] at h
      obtain h | h := h
      · omega
      · exact h
    simp [isBidiControl] at hbidi
    have hdigits : (Nat.toDigits 16 character.toNat).length ≤ 4 :=
      (Nat.length_toDigits_le_iff (by decide) (by decide)).mpr (by omega)
    have htwo : character.utf8Size ≠ 1 := by
      intro hone
      have hle := UInt32.le_iff_toNat_le.mp (Char.utf8Size_eq_one_iff.mp hone)
      exact hsmall (Nat.lt_of_le_of_lt hle (by decide))
    omega

/-- The bytes of some characters. -/
def byteSize (text : List Char) : Nat := (text.map Char.utf8Size).sum

@[simp] theorem byteSize_cons (character : Char) (text : List Char) :
    byteSize (character :: text) = character.utf8Size + byteSize text := by
  simp [byteSize]

@[simp] theorem byteSize_append (text text' : List Char) :
    byteSize (text ++ text') = byteSize text + byteSize text' := by
  simp [byteSize]

theorem byteSize_toList (text : String) : byteSize text.toList = text.utf8ByteSize := by
  rw [byteSize, ← utf8ByteSize_ofList, String.ofList_toList]

theorem utf8Size_of_isPlain (h : isPlain character = true) : character.utf8Size = 1 := by
  simp only [isPlain, Bool.or_eq_true, beq_iff_eq, Bool.and_eq_true, decide_eq_true_eq] at h
  obtain (rfl | rfl) | ⟨-, hle⟩ := h
  · rfl
  · rfl
  · have hle : character.val ≤ 126 := hle
    exact Char.utf8Size_eq_one_iff.mpr (UInt32.le_trans hle (by decide))

theorem byteSize_of_isPlain (h : ∀ character ∈ text, isPlain character = true) : byteSize text = text.length := by
  induction text with
  | nil => rfl
  | cons character text ih =>
    have hfirst := utf8Size_of_isPlain (h character List.mem_cons_self)
    have hrest := ih fun character hmem => h character (List.mem_cons_of_mem _ hmem)
    rw [byteSize_cons, hfirst, hrest, List.length_cons, Nat.add_comm]

theorem byteSize_renderCharacter_le (character : Char) :
    byteSize (renderCharacter character) ≤ 6 * character.utf8Size := by
  have hkept : byteSize [character] ≤ 6 * character.utf8Size := by
    simp [byteSize]
    omega
  unfold renderCharacter
  split
  · exact hkept
  · split
    · rename_i hescape
      rw [byteSize_of_isPlain fun _ h => isPlain_escapeUnicode h]
      exact length_escapeUnicode_le hescape
    · exact hkept

theorem byteSize_renderCharacters_le (text : List Char) : byteSize (renderCharacters text) ≤ 6 * byteSize text := by
  have hlf : '\n'.utf8Size = 1 := rfl
  have hcr : '\r'.utf8Size = 1 := rfl
  fun_induction renderCharacters text with
  | case1 => exact Nat.zero_le _
  | case2 characters ih =>
    simp only [byteSize_cons, hlf, hcr]
    omega
  | case3 characters hnext ih =>
    simp only [byteSize_cons, hlf, hcr]
    omega
  | case4 character characters hcrlf hcr ih =>
    have hcharacter := byteSize_renderCharacter_le character
    simp only [byteSize_append, byteSize_cons]
    omega

theorem renderModelText_size (text : String) : (renderModelText text).utf8ByteSize ≤ 6 * text.utf8ByteSize + 1 := by
  have hpass := byteSize_renderCharacters_le text.toList
  rw [byteSize_toList] at hpass
  have hlf : byteSize ['\n'] = 1 := rfl
  rw [← byteSize_toList, renderModelText, String.toList_ofList]
  split
  · exact Nat.le_succ_of_le hpass
  · rw [byteSize_append, hlf]
    exact Nat.succ_le_succ hpass

/-- The reserved bytes are enough. -/
theorem renderModelText_fits {usizeMax capacity : Nat} {text : String} (h : renderCapacity usizeMax text = some capacity) :
    (renderModelText text).utf8ByteSize ≤ capacity := by
  have hsize := renderModelText_size text
  simp only [renderCapacity, Option.ite_none_right_eq_some, Option.some.injEq] at h
  omega

/-! ## Rendered again -/

/-- What is inert is passed on as it is. -/
theorem renderCharacters_of_inert (h : Inert text) : renderCharacters text = text := by
  have hcr : ¬('\r' = '\n' ∨ '\r' = '\t') := by decide
  fun_induction renderCharacters text with
  | case1 => rfl
  | case2 characters ih => exact absurd ((h '\r' List.mem_cons_self).1 rfl) hcr
  | case3 characters hnext ih => exact absurd ((h '\r' List.mem_cons_self).1 rfl) hcr
  | case4 character characters hcrlf hnoCr ih =>
    obtain ⟨hcontrol, hbidi⟩ := h character List.mem_cons_self
    have hcharacter : renderCharacter character = [character] := by
      unfold renderCharacter
      split
      · rfl
      · rename_i hplain
        have hnoControl : isControl character = false := by
          rw [← Bool.not_eq_true]
          intro hc
          obtain rfl | rfl := hcontrol hc
          · exact hplain rfl
          · exact hplain rfl
        rw [shouldEscape, hnoControl, hbidi]
        rfl
    rw [hcharacter, ih fun character hmem => h character (List.mem_cons_of_mem _ hmem)]
    rfl

theorem renderModelText_idempotent (text : String) : renderModelText (renderModelText text) = renderModelText text := by
  have hlast : (renderModelText text).toList.getLast? == some '\n' := by
    rw [renderModelText_getLast?]
    rfl
  rw [renderModelText, renderCharacters_of_inert (renderModelText_inert text), if_pos hlast, String.ofList_toList]

end AgentHarness.Cli
