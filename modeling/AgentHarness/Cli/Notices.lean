/-
What the command line says of itself: the help texts, the version and the
error for an argument that is not expected, with the argument as it is shown
(`format_argument`). All of it is inert, whatever the argument's bytes are.
-/
import AgentHarness.Cli.Command
import AgentHarness.Cli.Render
import AgentHarness.Lib.Form

namespace AgentHarness.Cli

open Text

def unlines (lines : List String) : String := String.join (lines.map fun line => line ++ "\n")

/-! ## Help -/

/-- The paragraph of the help texts about what is retained. -/
def retention : List String := [
  "Retention:",
  "  Successful and failed valid asks are retained locally by default, including the",
  "  prompt, answer or fixed failure, timestamps, and working directory when available.",
  "  Use session list to recover retained identifiers. Files remain until manually",
  "  removed; there is no opt-out, delete, retention, or automatic-cleanup command.",
  "  macOS: ~/Library/Application Support/rust-agent-harness/sessions/",
  "  Linux: $XDG_DATA_HOME/rust-agent-harness/sessions/ or",
  "         ~/.local/share/rust-agent-harness/sessions/"]

def rootHelpText : String := unlines ([
  "A local coding-agent harness",
  "",
  "Usage: harness [OPTIONS] [COMMAND]",
  "",
  "Commands:",
  "  ask      Ask OpenAI Codex one question",
  "  auth     Manage account authentication",
  "  model    Exercise model connections",
  "  session  Inspect retained sessions",
  ""] ++ retention ++ [
  "",
  "Options:",
  "  -h, --help     Print help",
  "  -V, --version  Print version"])

def authHelpText : String := unlines [
  "Manage account authentication",
  "",
  "Usage: harness auth [OPTIONS] [COMMAND]",
  "",
  "Commands:",
  "  login   Connect an account",
  "  logout  Disconnect an account",
  "  status  Inspect an account connection",
  "",
  "Options:",
  "  -h, --help  Print help"]

def logoutHelpText : String := unlines [
  "Disconnect an account",
  "",
  "Usage: harness auth logout [OPTIONS] <PROVIDER>",
  "",
  "Providers:",
  "  openai-codex  OpenAI Codex through a ChatGPT subscription",
  "",
  "Options:",
  "  -h, --help  Print help"]

def statusHelpText : String := unlines [
  "Inspect an account connection",
  "",
  "Usage: harness auth status [OPTIONS] <PROVIDER>",
  "",
  "Providers:",
  "  openai-codex  OpenAI Codex through a ChatGPT subscription",
  "",
  "Options:",
  "  -h, --help  Print help"]

def loginHelpText : String := unlines [
  "Connect an account",
  "",
  "Usage: harness auth login [OPTIONS] <PROVIDER>",
  "",
  "Providers:",
  "  openai-codex  OpenAI Codex through a ChatGPT subscription",
  "",
  "Options:",
  "  -h, --help  Print help"]

def modelHelpText : String := unlines [
  "Exercise model connections",
  "",
  "Usage: harness model [OPTIONS] [COMMAND]",
  "",
  "Commands:",
  "  test  Test a model connection",
  "",
  "Options:",
  "  -h, --help  Print help"]

def modelTestHelpText : String := unlines [
  "Test a model connection",
  "",
  "Usage: harness model test [OPTIONS] <PROVIDER>",
  "",
  "Providers:",
  "  openai-codex  OpenAI Codex through a ChatGPT subscription",
  "",
  "Options:",
  "  -h, --help  Print help"]

def askHelpText : String := unlines ([
  "Ask OpenAI Codex one question",
  "",
  "Usage: harness ask [OPTIONS] <PROVIDER> <PROMPT>",
  "",
  "Providers:",
  "  openai-codex  OpenAI Codex through a ChatGPT subscription",
  "",
  "Arguments:",
  "  <PROMPT>  One UTF-8 prompt of at most 32768 bytes",
  "",
  "Output:",
  "  Terminal and bidi controls become visible escapes; all other Unicode is preserved,",
  "  including other invisible format characters",
  ""] ++ retention ++ [
  "",
  "Options:",
  "  -h, --help  Print help"])

def sessionHelpText : String := unlines ([
  "Inspect retained sessions",
  "",
  "Usage: harness session [OPTIONS] [COMMAND]",
  "",
  "Commands:",
  "  list  List retained sessions",
  "  show  Show one retained session by identifier",
  ""] ++ retention ++ [
  "",
  "Options:",
  "  -h, --help  Print help"])

def sessionListHelpText : String := unlines [
  "List retained sessions",
  "",
  "Usage: harness session list [OPTIONS]",
  "",
  "Output:",
  "  Metadata only: session identifier, creation time in Unix milliseconds, and status",
  "  Newest created sessions appear first",
  "",
  "Limits:",
  "  At most 4096 directory entries, 4096 session files, and 67108864 aggregate bytes",
  "  are inspected",
  "",
  "Options:",
  "  -h, --help  Print help"]

def sessionShowHelpText : String := unlines [
  "Show one retained session",
  "",
  "Usage: harness session show [OPTIONS] <SESSION_ID>",
  "",
  "Arguments:",
  "  <SESSION_ID>  Exactly 32 lowercase hexadecimal characters",
  "",
  "Output:",
  "  Prompt and answer text use the same terminal-safe rendering as ask",
  "",
  "Options:",
  "  -h, --help  Print help"]

def versionText : String := "harness 0.1.0\n"

/-! ## Errors -/

def maxDiagnosticArgumentChars : Nat := 256

/-- The tables of `char::escape_debug`. A control or a bidi control, of the
category `Cc` or `Cf`, is not printable. -/
structure EscapeTables where
  isPrintable : Char → Bool
  isGraphemeExtended : Char → Bool
  printable : ∀ character, isPrintable character = true →
    isControl character = false ∧ isBidiControl character = false

section
variable (tables : EscapeTables)

/-- `escape_debug_ext`. A character that extends a grapheme is escaped at the beginning of a text. -/
def escapeDebugExt (escapeGraphemeExtended : Bool) (character : Char) : List Char :=
  match character with
  | '\x00' => ['\\', '0']
  | '\t' => ['\\', 't']
  | '\r' => ['\\', 'r']
  | '\n' => ['\\', 'n']
  | '\\' => ['\\', '\\']
  | '\x22' => ['\\', '\x22']
  | '\x27' => ['\\', '\x27']
  | character =>
    if escapeGraphemeExtended && tables.isGraphemeExtended character then escapeUnicode character
    else if tables.isPrintable character then [character]
    else escapeUnicode character

def escapeDebug : List Char → List Char
  | [] => []
  | first :: rest => escapeDebugExt tables true first ++ rest.flatMap (escapeDebugExt tables false)

def formatArgument (argument : OsString) : String :=
  let characters := (Form.fromUtf8Lossy argument).toList
  let formatted := escapeDebug tables (characters.take maxDiagnosticArgumentChars)
  String.ofList (if characters.length > maxDiagnosticArgumentChars then formatted ++ ['…'] else formatted)

def usageErrorText (argument : OsString) (usage : String) : String :=
  "error: unexpected argument '" ++ formatArgument tables argument ++ "'\n\nUsage: " ++ usage ++
    "\n\nFor more information, try '--help'.\n"

end

/-! ## What is sent -/

theorem inert_unlines {lines : List String} (h : ∀ line ∈ lines, line.toList.all isPlain = true) :
    Inert (unlines lines).toList := by
  refine inert_of_isPlain fun character hmem => ?_
  have hjoin : (unlines lines).toList = lines.flatMap fun line => line.toList ++ ['\n'] := by
    simp [unlines, List.flatMap_def, List.map_map, Function.comp_def]
  rw [hjoin] at hmem
  obtain ⟨line, hline, hmem⟩ := List.mem_flatMap.mp hmem
  rcases List.mem_append.mp hmem with hmem | hmem
  · exact List.all_eq_true.mp (h line hline) character hmem
  · rw [List.mem_singleton.mp hmem]
    rfl

/-- A literal is the text of its characters. -/
theorem plain_literal {text : String} {characters : List Char} (htext : text = String.ofList characters)
    (h : characters.all isPlain = true) : text.toList.all isPlain = true := by
  rw [htext, String.toList_ofList, h]

theorem inert_literal {text : String} {characters : List Char} (htext : text = String.ofList characters)
    (h : characters.all isPlain = true) : Inert text.toList := inert_plain (plain_literal htext h)

theorem plain_cons {line : String} {lines : List String} {characters : List Char} (hline : line = String.ofList characters)
    (h : characters.all isPlain = true) (hlines : ∀ line ∈ lines, line.toList.all isPlain = true) :
    ∀ line' ∈ line :: lines, line'.toList.all isPlain = true :=
  List.forall_mem_cons.mpr ⟨plain_literal hline h, hlines⟩

theorem plain_retention : ∀ line ∈ retention, line.toList.all isPlain = true := by
  unfold retention
  repeat refine plain_cons rfl (by decide +kernel) ?_
  nofun

/-- Lines before what is said of the retention, and lines after it. -/
theorem inert_retaining {before after : List String} (hbefore : ∀ line ∈ before, line.toList.all isPlain = true)
    (hafter : ∀ line ∈ after, line.toList.all isPlain = true) : Inert (unlines (before ++ retention ++ after)).toList :=
  inert_unlines (List.forall_mem_append.mpr ⟨List.forall_mem_append.mpr ⟨hbefore, plain_retention⟩, hafter⟩)

theorem inert_help : ∀ text ∈ [rootHelpText, authHelpText, logoutHelpText, statusHelpText, loginHelpText, modelHelpText,
    modelTestHelpText, askHelpText, sessionHelpText, sessionListHelpText, sessionShowHelpText], Inert text.toList := by
  simp only [List.forall_mem_cons]
  refine ⟨inert_retaining ?_ ?_, inert_unlines ?_, inert_unlines ?_, inert_unlines ?_, inert_unlines ?_, inert_unlines ?_,
    inert_unlines ?_, inert_retaining ?_ ?_, inert_retaining ?_ ?_, inert_unlines ?_, inert_unlines ?_, nofun⟩
  all_goals
    repeat refine plain_cons rfl (by decide +kernel) ?_
    nofun

section
variable {tables : EscapeTables} {character : Char} {text : List Char}

theorem inert_escapeUnicode (character : Char) : Inert (escapeUnicode character) :=
  inert_of_isPlain fun _ h => isPlain_escapeUnicode h

theorem escapeDebugExt_inert (first : Bool) : Inert (escapeDebugExt tables first character) := by
  unfold escapeDebugExt
  split
  iterate 7 exact inert_plain (by decide)
  split
  · exact inert_escapeUnicode _
  · split
    · rename_i hprintable
      intro c hc
      obtain rfl := List.mem_singleton.mp hc
      obtain ⟨hcontrol, hbidi⟩ := tables.printable _ hprintable
      exact ⟨fun h => absurd h (by simp [hcontrol]), hbidi⟩
    · exact inert_escapeUnicode _

theorem escapeDebug_inert (text : List Char) : Inert (escapeDebug tables text) := by
  cases text with
  | nil => exact inert_nil
  | cons first rest =>
    rw [escapeDebug, inert_append]
    refine ⟨escapeDebugExt_inert true, fun c hc => ?_⟩
    obtain ⟨character, -, hc⟩ := List.mem_flatMap.mp hc
    exact escapeDebugExt_inert false c hc

theorem formatArgument_inert (argument : OsString) : Inert (formatArgument tables argument).toList := by
  have hellipsis : Inert ['…'] := by
    intro c hc
    obtain rfl := List.mem_singleton.mp hc
    exact ⟨by decide, by decide⟩
  rw [formatArgument, String.toList_ofList]
  split
  · exact inert_append.mpr ⟨escapeDebug_inert _, hellipsis⟩
  · exact escapeDebug_inert _

/-- What is said of an argument that is not expected. -/
theorem usageErrorText_inert {usage : String} (argument : OsString) (husage : usage.toList.all isPlain = true) :
    Inert (usageErrorText tables argument usage).toList := by
  have herror : Inert "error: unexpected argument '".toList := inert_literal rfl (by decide +kernel)
  have hline : Inert "'\n\nUsage: ".toList := inert_literal rfl (by decide +kernel)
  have hhelp : Inert "\n\nFor more information, try '--help'.\n".toList := inert_literal rfl (by decide +kernel)
  unfold usageErrorText
  simp only [String.toList_append, inert_append]
  exact ⟨⟨⟨⟨herror, formatArgument_inert argument⟩, hline⟩, inert_plain husage⟩, hhelp⟩

end

end AgentHarness.Cli
