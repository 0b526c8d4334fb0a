/-
The command line (`parse_command`), by five parsers of its words. `Line` is
the grammar of the lines that have an effect: one form for each command, and
no other line is read as one (`parseCommand_eq_iff`).
-/
import AgentHarness.Lib.Utf8
import AgentHarness.Cli.Ask

namespace AgentHarness.Cli

open Text SessionLog

/-- An argument, of any bytes. -/
abbrev OsString := Bytes

inductive Command where
  | rootHelp
  | version
  | askHelp
  | askOpenAiCodex (prompt : String)
  | invalidPrompt
  | sessionHelp
  | sessionListHelp
  | sessionList
  | sessionShowHelp
  | sessionShow (sessionId : String)
  | authHelp
  | loginHelp
  | loginOpenAiCodex
  | logoutHelp
  | logoutOpenAiCodex
  | statusHelp
  | statusOpenAiCodex
  | modelHelp
  | modelTestHelp
  | modelTestOpenAiCodex
  | usageError (argument : OsString) (usage : String)
  deriving DecidableEq, Repr

def rootUsage : String := "harness [OPTIONS] [COMMAND]"
def authUsage : String := "harness auth [OPTIONS] [COMMAND]"
def loginUsage : String := "harness auth login [OPTIONS] <PROVIDER>"
def logoutUsage : String := "harness auth logout [OPTIONS] <PROVIDER>"
def statusUsage : String := "harness auth status [OPTIONS] <PROVIDER>"
def modelUsage : String := "harness model [OPTIONS] [COMMAND]"
def modelTestUsage : String := "harness model test [OPTIONS] <PROVIDER>"
def askUsage : String := "harness ask [OPTIONS] <PROVIDER> <PROMPT>"
def sessionUsage : String := "harness session [OPTIONS] [COMMAND]"
def sessionListUsage : String := "harness session list [OPTIONS]"
def sessionShowUsage : String := "harness session show [OPTIONS] <SESSION_ID>"

/-! ## The parsers -/

def isHelp (argument : OsString) : Bool := argument == utf8 "-h" || argument == utf8 "--help"

def usageError (argument : OsString) (usage : String) : Command := .usageError argument usage

/-- What a help word gives when nothing may follow it. -/
def helpOrTrailing (trailing : Option OsString) (help : Command) (usage : String) : Command :=
  match trailing with
  | none => help
  | some trailing => usageError trailing usage

def validSessionId (sessionId : String) : Bool :=
  (utf8 sessionId).length == 32 &&
    (utf8 sessionId).all fun byte => (0x30 ≤ byte && byte ≤ 0x39) || (0x61 ≤ byte && byte ≤ 0x66)

/-- `session show`, with what follows. -/
def parseSessionShow (arguments : List OsString) : Command :=
  match arguments[2]? with
  | none => .usageError (utf8 "<SESSION_ID>") sessionShowUsage
  | some sessionId =>
    if isHelp sessionId then helpOrTrailing arguments[3]? .sessionShowHelp sessionShowUsage
    else match arguments[3]? with
      | some trailing => usageError trailing sessionShowUsage
      | none =>
        match ofUtf8? sessionId with
        | none => usageError sessionId sessionShowUsage
        | some sessionId =>
          if !validSessionId sessionId then usageError (utf8 sessionId) sessionShowUsage else .sessionShow sessionId

def parseSession (arguments : List OsString) : Command :=
  match arguments[1]? with
  | none => .sessionHelp
  | some command =>
    if isHelp command then helpOrTrailing arguments[2]? .sessionHelp sessionUsage
    else if command = utf8 "list" then
      match arguments[2]? with
      | none => .sessionList
      | some argument =>
        if isHelp argument then helpOrTrailing arguments[3]? .sessionListHelp sessionListUsage
        else usageError argument sessionListUsage
    else if command ≠ utf8 "show" then usageError command sessionUsage
    else parseSessionShow arguments

def parseAuthProvider (arguments : List OsString) (help : Command) (usage : String) (success : Command) : Command :=
  match arguments[2]? with
  | none => help
  | some provider =>
    if isHelp provider then help
    else if provider ≠ utf8 "openai-codex" then usageError provider usage
    else match arguments[3]? with
      | some trailing => usageError trailing usage
      | none => success

def parseAuth (arguments : List OsString) : Command :=
  match arguments[1]? with
  | none => .authHelp
  | some second =>
    if isHelp second then .authHelp
    else if second = utf8 "logout" then parseAuthProvider arguments .logoutHelp logoutUsage .logoutOpenAiCodex
    else if second = utf8 "status" then parseAuthProvider arguments .statusHelp statusUsage .statusOpenAiCodex
    else if second ≠ utf8 "login" then usageError second authUsage
    else parseAuthProvider arguments .loginHelp loginUsage .loginOpenAiCodex

def parseModel (arguments : List OsString) : Command :=
  match arguments[1]? with
  | none => .modelHelp
  | some second =>
    if isHelp second then .modelHelp
    else if second ≠ utf8 "test" then usageError second modelUsage
    else match arguments[2]? with
      | none => .modelTestHelp
      | some third =>
        if isHelp third then .modelTestHelp
        else if third ≠ utf8 "openai-codex" then usageError third modelTestUsage
        else match arguments[3]? with
          | some trailing => usageError trailing modelTestUsage
          | none => .modelTestOpenAiCodex

/-- `ask openai-codex`, with what follows. -/
def parsePrompt (arguments : List OsString) : Command :=
  match arguments[2]? with
  | none => .invalidPrompt
  | some prompt =>
    if isHelp prompt then .askHelp
    else if prompt = utf8 "--" then usageError prompt askUsage
    else match arguments[3]? with
      | some trailing => usageError trailing askUsage
      | none =>
        match ofUtf8? prompt with
        | none => .invalidPrompt
        | some prompt => if !validPrompt prompt then .invalidPrompt else .askOpenAiCodex prompt

def parseAsk (arguments : List OsString) : Command :=
  match arguments[1]? with
  | none => .askHelp
  | some provider =>
    if isHelp provider then .askHelp
    else if provider ≠ utf8 "openai-codex" then usageError provider askUsage
    else parsePrompt arguments

def parseCommand (arguments : List OsString) : Command :=
  match arguments[0]? with
  | none => .rootHelp
  | some first =>
    if isHelp first then .rootHelp
    else if first = utf8 "-V" ∨ first = utf8 "--version" then .version
    else if first = utf8 "auth" then parseAuth arguments
    else if first = utf8 "ask" then parseAsk arguments
    else if first = utf8 "model" then parseModel arguments
    else if first = utf8 "session" then parseSession arguments
    else usageError first rootUsage

/-! ## The lines with an effect -/

/-- A command that only prints: help, the version or an error. -/
def Command.IsNotice : Command → Prop
  | .askOpenAiCodex _ | .sessionList | .sessionShow _ | .loginOpenAiCodex | .logoutOpenAiCodex | .statusOpenAiCodex |
    .modelTestOpenAiCodex => False
  | _ => True

/-- The lines that have an effect, and which. -/
inductive Line : List OsString → Command → Prop
  | ask {prompt : String} : prompt ∉ ["-h", "--help", "--"] → validPrompt prompt = true →
      Line [utf8 "ask", utf8 "openai-codex", utf8 prompt] (.askOpenAiCodex prompt)
  | sessionShow {sessionId : String} : validSessionId sessionId = true →
      Line [utf8 "session", utf8 "show", utf8 sessionId] (.sessionShow sessionId)
  | sessionList : Line [utf8 "session", utf8 "list"] .sessionList
  | login : Line [utf8 "auth", utf8 "login", utf8 "openai-codex"] .loginOpenAiCodex
  | logout : Line [utf8 "auth", utf8 "logout", utf8 "openai-codex"] .logoutOpenAiCodex
  | status : Line [utf8 "auth", utf8 "status", utf8 "openai-codex"] .statusOpenAiCodex
  | modelTest : Line [utf8 "model", utf8 "test", utf8 "openai-codex"] .modelTestOpenAiCodex

section
variable {arguments : List OsString} {command : Command}

theorem helpOrTrailing_isNotice {trailing : Option OsString} {help : Command} {usage : String} (h : help.IsNotice) :
    (helpOrTrailing trailing help usage).IsNotice := by
  cases trailing with
  | none => exact h
  | some trailing => trivial

theorem eq_two {a b : OsString} (h0 : arguments[0]? = some a) (h1 : arguments[1]? = some b)
    (h2 : arguments[2]? = none) : arguments = [a, b] := by
  match arguments with
  | [] => cases h0
  | [_] => cases h1
  | [_, _] =>
    cases h0
    cases h1
    rfl
  | _ :: _ :: _ :: _ => cases h2

theorem eq_three {a b c : OsString} (h0 : arguments[0]? = some a) (h1 : arguments[1]? = some b)
    (h2 : arguments[2]? = some c) (h3 : arguments[3]? = none) : arguments = [a, b, c] := by
  match arguments with
  | [] => cases h0
  | [_] => cases h1
  | [_, _] => cases h2
  | [_, _, _] =>
    cases h0
    cases h1
    cases h2
    rfl
  | _ :: _ :: _ :: _ :: _ => cases h3

/-- A parser's result is a notice, or the line is one of the grammar's. -/
theorem parseAuthProvider_line {help success : Command} {usage : String} {word : OsString} (hhelp : help.IsNotice)
    (h0 : arguments[0]? = some (utf8 "auth")) (h1 : arguments[1]? = some word)
    (hline : Line [utf8 "auth", word, utf8 "openai-codex"] success) :
    (parseAuthProvider arguments help usage success).IsNotice ∨
      Line arguments (parseAuthProvider arguments help usage success) := by
  unfold parseAuthProvider
  split
  · exact .inl hhelp
  · rename_i provider h2
    split
    · exact .inl hhelp
    · split
      · exact .inl trivial
      · rename_i hprovider
        rw [not_not] at hprovider
        split
        · exact .inl trivial
        · rename_i h3
          rw [eq_three h0 h1 (hprovider ▸ h2) h3]
          exact .inr hline

theorem parseAuth_line (h0 : arguments[0]? = some (utf8 "auth")) :
    (parseAuth arguments).IsNotice ∨ Line arguments (parseAuth arguments) := by
  unfold parseAuth
  split
  · exact .inl trivial
  · rename_i second h1
    split
    · exact .inl trivial
    · split
      · rename_i hword
        exact parseAuthProvider_line trivial h0 (hword ▸ h1) .logout
      · split
        · rename_i hword
          exact parseAuthProvider_line trivial h0 (hword ▸ h1) .status
        · split
          · exact .inl trivial
          · rename_i hword
            rw [not_not] at hword
            exact parseAuthProvider_line trivial h0 (hword ▸ h1) .login

theorem parseModel_line (h0 : arguments[0]? = some (utf8 "model")) :
    (parseModel arguments).IsNotice ∨ Line arguments (parseModel arguments) := by
  unfold parseModel
  split
  · exact .inl trivial
  · rename_i second h1
    split
    · exact .inl trivial
    · split
      · exact .inl trivial
      · rename_i hsecond
        rw [not_not] at hsecond
        split
        · exact .inl trivial
        · rename_i third h2
          split
          · exact .inl trivial
          · split
            · exact .inl trivial
            · rename_i hthird
              rw [not_not] at hthird
              split
              · exact .inl trivial
              · rename_i h3
                rw [eq_three h0 (hsecond ▸ h1) (hthird ▸ h2) h3]
                exact .inr .modelTest

theorem parsePrompt_line (h0 : arguments[0]? = some (utf8 "ask")) (h1 : arguments[1]? = some (utf8 "openai-codex")) :
    (parsePrompt arguments).IsNotice ∨ Line arguments (parsePrompt arguments) := by
  unfold parsePrompt
  split
  · exact .inl trivial
  · rename_i argument h2
    split
    · exact .inl trivial
    · rename_i hhelp
      split
      · exact .inl trivial
      · rename_i hdash
        split
        · exact .inl trivial
        · rename_i h3
          split
          · exact .inl trivial
          · rename_i prompt hprompt
            split
            · exact .inl trivial
            · rename_i hvalid
              rw [Bool.not_eq_true, Bool.not_eq_false'] at hvalid
              obtain rfl := ofUtf8?_eq_some.mp hprompt
              rw [eq_three h0 h1 h2 h3]
              refine .inr (.ask ?_ hvalid)
              intro hmem
              simp only [List.mem_cons, List.not_mem_nil, or_false] at hmem
              obtain rfl | rfl | rfl := hmem
              · exact hhelp rfl
              · exact hhelp rfl
              · exact hdash rfl

theorem parseAsk_line (h0 : arguments[0]? = some (utf8 "ask")) :
    (parseAsk arguments).IsNotice ∨ Line arguments (parseAsk arguments) := by
  unfold parseAsk
  split
  · exact .inl trivial
  · rename_i provider h1
    split
    · exact .inl trivial
    · split
      · exact .inl trivial
      · rename_i hprovider
        rw [not_not] at hprovider
        exact parsePrompt_line h0 (hprovider ▸ h1)

theorem parseSessionShow_line (h0 : arguments[0]? = some (utf8 "session"))
    (h1 : arguments[1]? = some (utf8 "show")) :
    (parseSessionShow arguments).IsNotice ∨ Line arguments (parseSessionShow arguments) := by
  unfold parseSessionShow
  split
  · exact .inl trivial
  · rename_i argument h2
    split
    · exact .inl (helpOrTrailing_isNotice trivial)
    · split
      · exact .inl trivial
      · rename_i h3
        split
        · exact .inl trivial
        · rename_i sessionId hid
          split
          · exact .inl trivial
          · rename_i hvalid
            rw [Bool.not_eq_true, Bool.not_eq_false'] at hvalid
            obtain rfl := ofUtf8?_eq_some.mp hid
            rw [eq_three h0 h1 h2 h3]
            exact .inr (.sessionShow hvalid)

theorem parseSession_line (h0 : arguments[0]? = some (utf8 "session")) :
    (parseSession arguments).IsNotice ∨ Line arguments (parseSession arguments) := by
  unfold parseSession
  split
  · exact .inl trivial
  · rename_i command h1
    split
    · exact .inl (helpOrTrailing_isNotice trivial)
    · split
      · rename_i hlist
        split
        · rename_i h2
          rw [eq_two h0 (hlist ▸ h1) h2]
          exact .inr .sessionList
        · split
          · exact .inl (helpOrTrailing_isNotice trivial)
          · exact .inl trivial
      · split
        · exact .inl trivial
        · rename_i hshow
          rw [not_not] at hshow
          exact parseSessionShow_line h0 (hshow ▸ h1)

/-- What is read of any line is a notice, or the line is one with an effect. -/
theorem parseCommand_line (arguments : List OsString) :
    (parseCommand arguments).IsNotice ∨ Line arguments (parseCommand arguments) := by
  unfold parseCommand
  split
  · exact .inl trivial
  · rename_i first h0
    split
    · exact .inl trivial
    · split
      · exact .inl trivial
      · split
        · rename_i hword
          exact parseAuth_line (hword ▸ h0)
        · split
          · rename_i hword
            exact parseAsk_line (hword ▸ h0)
          · split
            · rename_i hword
              exact parseModel_line (hword ▸ h0)
            · split
              · rename_i hword
                exact parseSession_line (hword ▸ h0)
              · exact .inl trivial

end

/-! ## Each line is read -/

theorem isHelp_utf8 {word : String} (h : word ∉ ["-h", "--help", "--"]) : isHelp (utf8 word) = false := by
  simp only [List.mem_cons, List.not_mem_nil, or_false, not_or] at h
  simp only [isHelp, Bool.or_eq_false_iff, beq_eq_false_iff_ne]
  exact ⟨fun heq => h.1 (utf8_inj heq), fun heq => h.2.1 (utf8_inj heq)⟩

theorem parseCommand_of_line {arguments : List OsString} {command : Command} (h : Line arguments command) :
    parseCommand arguments = command := by
  cases h with
  | @ask prompt hword hvalid =>
    have hdash : utf8 prompt ≠ utf8 "--" := by
      intro heq
      exact hword (by simp [utf8_inj heq])
    have hprompt : parsePrompt [utf8 "ask", utf8 "openai-codex", utf8 prompt] = .askOpenAiCodex prompt := by
      simp [parsePrompt, isHelp_utf8 hword, hdash, ofUtf8?_utf8, hvalid]
    exact hprompt
  | @sessionShow sessionId hvalid =>
    have hword : sessionId ∉ ["-h", "--help", "--"] := by
      intro hmem
      simp only [List.mem_cons, List.not_mem_nil, or_false] at hmem
      obtain rfl | rfl | rfl := hmem
      · exact absurd hvalid (by decide)
      · exact absurd hvalid (by decide)
      · exact absurd hvalid (by decide)
    have hshow : parseSessionShow [utf8 "session", utf8 "show", utf8 sessionId] = .sessionShow sessionId := by
      simp [parseSessionShow, isHelp_utf8 hword, ofUtf8?_utf8, hvalid]
    exact hshow
  | sessionList => decide
  | login => decide
  | logout => decide
  | status => decide
  | modelTest => decide

theorem Line.not_isNotice {arguments : List OsString} {command : Command} (h : Line arguments command) :
    ¬command.IsNotice := by
  intro hnotice
  cases h <;> exact hnotice

/-- A command with an effect is read of its line, and of no other. -/
theorem parseCommand_eq_iff {arguments : List OsString} {command : Command} (h : ¬command.IsNotice) :
    parseCommand arguments = command ↔ Line arguments command := by
  constructor
  · intro hparse
    obtain hnotice | hline := parseCommand_line arguments
    · exact absurd (hparse ▸ hnotice) h
    · exact hparse ▸ hline
  · exact parseCommand_of_line

/-- Every line but those of the grammar gives a notice. -/
theorem parseCommand_isNotice_iff {arguments : List OsString} :
    (parseCommand arguments).IsNotice ↔ ¬∃ command, Line arguments command := by
  constructor
  · intro hnotice hline
    obtain ⟨command, hline⟩ := hline
    rw [parseCommand_of_line hline] at hnotice
    exact hline.not_isNotice hnotice
  · intro hno
    obtain hnotice | hline := parseCommand_line arguments
    · exact hnotice
    · exact absurd ⟨_, hline⟩ hno

/-! ## Prompts and ids as texts -/

theorem trim_isEmpty_iff {text : String} :
    (trim text).isEmpty = true ↔ ∀ character ∈ text.toList, isWhitespace character = true := by
  have hall : (∀ character ∈ text.toList.dropWhile isWhitespace, isWhitespace character = true) ↔
      ∀ character ∈ text.toList, isWhitespace character = true := by
    constructor
    · intro h
      rw [← List.takeWhile_append_dropWhile (p := isWhitespace) (l := text.toList), List.forall_mem_append]
      exact ⟨fun _ hmem => List.mem_takeWhile_imp hmem, h⟩
    · intro h character hmem
      exact h character (List.dropWhile_subset _ hmem)
  rw [← hall, trim, String.isEmpty_iff, String.ofList_eq_empty_iff, List.reverse_eq_nil_iff,
    List.dropWhile_eq_nil_iff]
  simp only [List.mem_reverse]

/-- A prompt is accepted when it has a character that is no white space, and few enough bytes. -/
theorem validPrompt_iff {prompt : String} : validPrompt prompt = true ↔
    (∃ character ∈ prompt.toList, isWhitespace character = false) ∧ prompt.utf8ByteSize ≤ 32768 := by
  have htrim : (trim prompt).isEmpty = false ↔ ∃ character ∈ prompt.toList, isWhitespace character = false := by
    rw [← Bool.not_eq_true, trim_isEmpty_iff]
    simp
  rw [validPrompt, Bool.and_eq_true, decide_eq_true_eq, Bool.not_eq_true', htrim]
  rfl

/-- An id is 32 digits of the hexadecimal ones in lower case. -/
theorem validSessionId_iff {sessionId : String} : validSessionId sessionId = true ↔
    sessionId.toList.length = 32 ∧ ∀ character ∈ sessionId.toList, character ∈ "0123456789abcdef".toList := by
  have hdigits : ∀ n < 128, (0x30 ≤ n ∧ n ≤ 0x39) ∨ (0x61 ≤ n ∧ n ≤ 0x66) →
      Char.ofNat n ∈ "0123456789abcdef".toList := by decide +kernel
  have hall : "0123456789abcdef".toList.all (fun character => decide (character.toNat < 128 ∧
      ((0x30 ≤ character.toNat ∧ character.toNat ≤ 0x39) ∨ (0x61 ≤ character.toNat ∧ character.toNat ≤ 0x66)))) = true := by
    decide +kernel
  have hbytes : ∀ character ∈ "0123456789abcdef".toList, character.toNat < 128 ∧
      ((0x30 ≤ character.toNat ∧ character.toNat ≤ 0x39) ∨ (0x61 ≤ character.toNat ∧ character.toNat ≤ 0x66)) :=
    fun character hmem => of_decide_eq_true (List.all_eq_true.mp hall character hmem)
  simp only [validSessionId, Bool.and_eq_true, beq_iff_eq, List.all_eq_true, Bool.or_eq_true, decide_eq_true_eq,
    UInt8.le_iff_toNat_le]
  constructor
  · intro h
    obtain ⟨hlength, hall⟩ := h
    have hrange : ∀ b ∈ utf8 sessionId, (0x30 ≤ b.toNat ∧ b.toNat ≤ 0x39) ∨ (0x61 ≤ b.toNat ∧ b.toNat ≤ 0x66) := hall
    have hlt : ∀ b ∈ utf8 sessionId, b.toNat < 128 := by
      intro b hb
      have hb := hrange b hb
      omega
    have hmem : ∀ character ∈ sessionId.toList, character ∈ "0123456789abcdef".toList := by
      intro character hc
      obtain ⟨b, hb, heq⟩ := mem_toList_of_ascii (fun b hb => UInt8.lt_iff_toNat_lt.mpr (hlt b hb)) hc
      have hdigit := hdigits b.toNat (hlt b hb) (hrange b hb)
      rwa [← heq, Char.ofNat_toNat] at hdigit
    refine ⟨?_, hmem⟩
    rw [utf8_of_ascii fun character hc => (hbytes character (hmem character hc)).1, List.length_map] at hlength
    exact hlength
  · intro h
    obtain ⟨hlength, hmem⟩ := h
    rw [utf8_of_ascii fun character hc => (hbytes character (hmem character hc)).1, List.length_map]
    refine ⟨hlength, ?_⟩
    intro b hb
    obtain ⟨character, hc, rfl⟩ := List.mem_map.mp hb
    obtain ⟨hlt, hrange⟩ := hbytes character (hmem character hc)
    rw [UInt8.toNat_ofNat', Nat.mod_eq_of_lt (Nat.lt_trans hlt (by decide))]
    exact hrange

end AgentHarness.Cli
