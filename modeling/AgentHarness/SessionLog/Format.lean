/-
The records of a session file and their JSON: a header, then entries, one a
line. Both unions are tagged inside their object and deny members that are
no field.
-/
import AgentHarness.Lib.Except
import AgentHarness.Lib.Json.Derive
import AgentHarness.Lib.Json.Render

namespace AgentHarness.SessionLog

open Text Except

def formatVersion : UInt64 := 1
def maxRecordBytes : Nat := 2 * 1024 * 1024
def maxSessionBytes : Nat := 3 * 1024 * 1024
def maxDiagnosticBytes : Nat := 4 * 1024
def lf : UInt8 := 0x0a

/-! ## Failure codes -/

inductive FailureCode where
  | unsupportedPlatform
  | notConnected
  | credentialStoreUnavailable
  | invalidCredential
  | expiredCredential
  | credentialRefreshBusy
  | credentialRefreshUnavailable
  | unavailable
  | unexpectedProviderResponse
  | connectionRejected
  | accessDenied
  | rateLimited
  | temporarilyUnavailable
  | rejected
  | invalidProviderResponse
  | callTimedOut
  | responseTooLarge
  | modelCallFailed
  | emptyResponse
  deriving DecidableEq, Repr

namespace FailureCode

def diagnostic : FailureCode → String
  | .unsupportedPlatform => "OpenAI Codex model calls are supported only on macOS"
  | .notConnected => "OpenAI Codex is not connected; run 'harness auth login openai-codex'"
  | .credentialStoreUnavailable => "the OpenAI Codex credential store is unavailable"
  | .invalidCredential => "the stored OpenAI Codex connection is invalid; run 'harness auth login openai-codex'"
  | .expiredCredential => "the OpenAI Codex connection expired; run 'harness auth login openai-codex'"
  | .credentialRefreshBusy => "OpenAI Codex credential refresh is already in progress; try again"
  | .credentialRefreshUnavailable => "OpenAI Codex credential refresh is temporarily unavailable; try again"
  | .unavailable => "OpenAI Codex is unavailable; try again"
  | .unexpectedProviderResponse => "OpenAI Codex returned an unexpected response"
  | .connectionRejected => "OpenAI Codex rejected the connection; run 'harness auth login openai-codex'"
  | .accessDenied => "this account does not have access to the Codex model request"
  | .rateLimited => "OpenAI Codex usage or rate limit reached"
  | .temporarilyUnavailable => "OpenAI Codex is temporarily unavailable; try again"
  | .rejected => "OpenAI Codex rejected the model request"
  | .invalidProviderResponse => "OpenAI Codex returned an invalid response"
  | .callTimedOut => "the OpenAI Codex model call timed out"
  | .responseTooLarge => "OpenAI Codex returned a response that exceeded harness limits"
  | .modelCallFailed => "the OpenAI Codex model call did not complete"
  | .emptyResponse => "OpenAI Codex returned no text"

/-- The name a code has in JSON. -/
def name : FailureCode → String
  | .unsupportedPlatform => "unsupported_platform"
  | .notConnected => "not_connected"
  | .credentialStoreUnavailable => "credential_store_unavailable"
  | .invalidCredential => "invalid_credential"
  | .expiredCredential => "expired_credential"
  | .credentialRefreshBusy => "credential_refresh_busy"
  | .credentialRefreshUnavailable => "credential_refresh_unavailable"
  | .unavailable => "unavailable"
  | .unexpectedProviderResponse => "unexpected_provider_response"
  | .connectionRejected => "connection_rejected"
  | .accessDenied => "access_denied"
  | .rateLimited => "rate_limited"
  | .temporarilyUnavailable => "temporarily_unavailable"
  | .rejected => "rejected"
  | .invalidProviderResponse => "invalid_provider_response"
  | .callTimedOut => "call_timed_out"
  | .responseTooLarge => "response_too_large"
  | .modelCallFailed => "model_call_failed"
  | .emptyResponse => "empty_response"

def all : List FailureCode :=
  [.unsupportedPlatform, .notConnected, .credentialStoreUnavailable, .invalidCredential, .expiredCredential,
    .credentialRefreshBusy, .credentialRefreshUnavailable, .unavailable, .unexpectedProviderResponse,
    .connectionRejected, .accessDenied, .rateLimited, .temporarilyUnavailable, .rejected, .invalidProviderResponse,
    .callTimedOut, .responseTooLarge, .modelCallFailed, .emptyResponse]

def toJson (c : FailureCode) : Json := .str c.name

def ofJson (v : Json) : Option FailureCode := do
  let name ← v.unitVariant
  all.find? (·.name = name)

theorem ofJson_toJson (c : FailureCode) : ofJson c.toJson = some c := by cases c <;> decide

/-- Every diagnostic is one the reader has room for. -/
theorem diagnostic_length (c : FailureCode) : c.diagnostic.utf8ByteSize ≤ maxDiagnosticBytes := by
  cases c <;> decide

end FailureCode

/-! ## Records -/

inductive Provider where
  | openAiCodex
  deriving DecidableEq, Repr

inductive CompletedOutcome where
  | completed
  deriving DecidableEq, Repr

inductive FailedOutcome where
  | failed
  deriving DecidableEq, Repr

inductive Payload where
  | userMessage (provider : Provider) (text : String)
  | assistantMessage (provider : Provider) (text : String) (operationOutcome : CompletedOutcome)
  | terminalFailure (provider : Provider) (failureCode : FailureCode) (diagnostic : String)
      (operationOutcome : FailedOutcome)
  deriving DecidableEq, Repr

inductive Record where
  | header (formatVersion : UInt64) (sessionId : String) (createdAtUnixMs : UInt64)
      (workingDirectory : Option String) (harnessVersion : String)
  | entry (entryId : String) (parentEntryId : Option String) (sequence timestampUnixMs : UInt64) (operationId : String)
      (payload : Payload)
  deriving DecidableEq, Repr

/-- An enumeration of one name. -/
def singleVariant {α : Type} (name : String) (a : α) (v : Json) : Option α := do
  if (← v.unitVariant) = name then some a else none

theorem singleVariant_str {α : Type} (name : String) (a : α) : singleVariant name a (.str name) = some a := by
  simp [singleVariant]

def Provider.toJson : Provider → Json
  | .openAiCodex => .str "openai-codex"

def Provider.ofJson : Json → Option Provider := singleVariant "openai-codex" .openAiCodex

def CompletedOutcome.toJson : CompletedOutcome → Json
  | .completed => .str "completed"

def CompletedOutcome.ofJson : Json → Option CompletedOutcome := singleVariant "completed" .completed

def FailedOutcome.toJson : FailedOutcome → Json
  | .failed => .str "failed"

def FailedOutcome.ofJson : Json → Option FailedOutcome := singleVariant "failed" .failed

@[simp] theorem Provider.ofJson_toJson (p : Provider) : Provider.ofJson p.toJson = some p := singleVariant_str _ _

@[simp] theorem CompletedOutcome.ofJson_toJson (o : CompletedOutcome) : CompletedOutcome.ofJson o.toJson = some o :=
  singleVariant_str _ _

@[simp] theorem FailedOutcome.ofJson_toJson (o : FailedOutcome) : FailedOutcome.ofJson o.toJson = some o :=
  singleVariant_str _ _

namespace Payload

def userFields : List String := ["provider", "text"]
def assistantFields : List String := ["provider", "text", "operation_outcome"]
def failureFields : List String := ["provider", "failure_code", "diagnostic", "operation_outcome"]

def toJson : Payload → Json
  | .userMessage provider text => Json.ofTagged "type" "user_message" userFields [provider.toJson, .str text]
  | .assistantMessage provider text outcome =>
    Json.ofTagged "type" "assistant_message" assistantFields [provider.toJson, .str text, outcome.toJson]
  | .terminalFailure provider code diagnostic outcome =>
    Json.ofTagged "type" "terminal_failure" failureFields
      [provider.toJson, code.toJson, .str diagnostic, outcome.toJson]

inductive Tag where
  | userMessage
  | assistantMessage
  | terminalFailure
  deriving DecidableEq, Repr

/-- The tag of a value that was buffered before: by name or by position. -/
def Tag.ofJson : Json → Option Tag
  | .str name =>
    if name = "user_message" then some .userMessage
    else if name = "assistant_message" then some .assistantMessage
    else if name = "terminal_failure" then some .terminalFailure
    else none
  | .num (.posInt n) =>
    if n = 0 then some .userMessage
    else if n = 1 then some .assistantMessage
    else if n = 2 then some .terminalFailure
    else none
  | _ => none

def ofJson (v : Json) : Option Payload := do
  let (tag, v) ← v.tagged "type"
  match ← Tag.ofJson tag with
  | .userMessage =>
    match ← v.fields .denied userFields with
    | [provider, text] =>
      return .userMessage (← Json.required Provider.ofJson provider) (← Json.required Json.asStr text)
    | _ => none
  | .assistantMessage =>
    match ← v.fields .denied assistantFields with
    | [provider, text, outcome] =>
      return .assistantMessage (← Json.required Provider.ofJson provider) (← Json.required Json.asStr text)
        (← Json.required CompletedOutcome.ofJson outcome)
    | _ => none
  | .terminalFailure =>
    match ← v.fields .denied failureFields with
    | [provider, code, diagnostic, outcome] =>
      return .terminalFailure (← Json.required Provider.ofJson provider) (← Json.required FailureCode.ofJson code)
        (← Json.required Json.asStr diagnostic) (← Json.required FailedOutcome.ofJson outcome)
    | _ => none

end Payload

namespace Record

def headerFields : List String :=
  ["format_version", "session_id", "created_at_unix_ms", "working_directory", "harness_version"]

def entryFields : List String :=
  ["entry_id", "parent_entry_id", "sequence", "timestamp_unix_ms", "operation_id", "payload"]

def toJson : Record → Json
  | .header version id createdAt directory harness =>
    Json.ofTagged "record_type" "session_header" headerFields
      [Json.ofU64 version, .str id, Json.ofU64 createdAt, Json.ofOption .str directory, .str harness]
  | .entry id parent sequence timestamp operation payload =>
    Json.ofTagged "record_type" "entry" entryFields
      [.str id, Json.ofOption .str parent, Json.ofU64 sequence, Json.ofU64 timestamp, .str operation, payload.toJson]

inductive Tag where
  | header
  | entry
  deriving DecidableEq, Repr

def Tag.ofJson (v : Json) : Option Tag := do
  let name ← v.asStr
  if name = "session_header" then some .header else if name = "entry" then some .entry else none

def ofJson (v : Json) : Option Record := do
  let (tag, v) ← v.tagged "record_type"
  match ← Tag.ofJson tag with
  | .header =>
    match ← v.fields .denied headerFields with
    | [version, id, createdAt, directory, harness] =>
      return .header (← Json.required Json.asU64 version) (← Json.required Json.asStr id)
        (← Json.required Json.asU64 createdAt) (← Json.optional Json.asStr directory) (← Json.required Json.asStr harness)
    | _ => none
  | .entry =>
    match ← v.fields .denied entryFields with
    | [id, parent, sequence, timestamp, operation, payload] =>
      return .entry (← Json.required Json.asStr id) (← Json.optional Json.asStr parent)
        (← Json.required Json.asU64 sequence) (← Json.required Json.asU64 timestamp)
        (← Json.required Json.asStr operation) (← Json.required Payload.ofJson payload)
    | _ => none

/-- The record a line holds. -/
def fromSlice (line : Bytes) : Option Record := (Json.parse line).bind ofJson

end Record

/-! ## What is written -/

def header (sessionId : String) (createdAtUnixMs : UInt64) (workingDirectory : Option String)
    (harnessVersion : String) : Record :=
  .header formatVersion sessionId createdAtUnixMs workingDirectory harnessVersion

def userEntry (entryId : String) (timestampUnixMs : UInt64) (operationId text : String) : Record :=
  .entry entryId none 1 timestampUnixMs operationId (.userMessage .openAiCodex text)

def assistantEntry (entryId userEntryId : String) (timestampUnixMs : UInt64) (operationId text : String) : Record :=
  .entry entryId (some userEntryId) 2 timestampUnixMs operationId (.assistantMessage .openAiCodex text .completed)

def failureEntry (entryId userEntryId : String) (timestampUnixMs : UInt64) (operationId : String)
    (failureCode : FailureCode) : Record :=
  .entry entryId (some userEntryId) 2 timestampUnixMs operationId
    (.terminalFailure .openAiCodex failureCode failureCode.diagnostic .failed)

/-- A record as the library writes it. -/
def Record.toVec (record : Record) : Bytes := Json.render record.toJson

def serializeLine (record : Record) : Option Bytes :=
  let bytes := record.toVec
  if bytes.length > maxRecordBytes then none else some (bytes ++ [lf])

theorem serializeLine_eq_some {r : Record} {line : Bytes} :
    serializeLine r = some line ↔ r.toVec.length ≤ maxRecordBytes ∧ line = r.toVec ++ [lf] := by
  unfold serializeLine
  simp only [gt_iff_lt, Option.ite_none_left_eq_some, Nat.not_lt, Option.some.injEq, eq_comm (a := line)]

/-! ## What is written is read back -/

section
open Json

theorem Payload.ofJson_toJson (p : Payload) : Payload.ofJson p.toJson = some p := by
  cases p with
  | userMessage provider text =>
    obtain ⟨ht, hf⟩ := ofTagged_readBack "type" "user_message" .denied userFields [provider.toJson, .str text]
      (by decide) rfl
    simp [Payload.ofJson, Payload.toJson, ht, hf, Tag.ofJson]
  | assistantMessage provider text outcome =>
    obtain ⟨ht, hf⟩ := ofTagged_readBack "type" "assistant_message" .denied assistantFields
      [provider.toJson, .str text, outcome.toJson] (by decide) rfl
    simp [Payload.ofJson, Payload.toJson, ht, hf, Tag.ofJson]
  | terminalFailure provider code diagnostic outcome =>
    obtain ⟨ht, hf⟩ := ofTagged_readBack "type" "terminal_failure" .denied failureFields
      [provider.toJson, code.toJson, .str diagnostic, outcome.toJson] (by decide) rfl
    simp [Payload.ofJson, Payload.toJson, ht, hf, Tag.ofJson, FailureCode.ofJson_toJson]

theorem Record.ofJson_toJson (r : Record) : Record.ofJson r.toJson = some r := by
  cases r with
  | header version id createdAt directory harness =>
    obtain ⟨ht, hf⟩ := ofTagged_readBack "record_type" "session_header" .denied headerFields
      [ofU64 version, .str id, ofU64 createdAt, ofOption .str directory, .str harness] (by decide) rfl
    simp [Record.ofJson, Record.toJson, ht, hf, Tag.ofJson]
  | entry id parent sequence timestamp operation payload =>
    obtain ⟨ht, hf⟩ := ofTagged_readBack "record_type" "entry" .denied entryFields
      [.str id, ofOption .str parent, ofU64 sequence, ofU64 timestamp, .str operation, payload.toJson]
      (by decide) rfl
    simp [Record.ofJson, Record.toJson, ht, hf, Tag.ofJson, Payload.ofJson_toJson]

theorem Payload.toJson_wellFormed (p : Payload) : p.toJson.Integral ∧ p.toJson.depth = 1 := by
  obtain _ | _ | _ := p
  all_goals
    simp [Payload.toJson, ofTagged, userFields, assistantFields, failureFields, Integral, IntegralMembers, depth,
      depthMembers, Provider.toJson, CompletedOutcome.toJson, FailedOutcome.toJson, FailureCode.toJson]

theorem Record.toJson_wellFormed (r : Record) : r.toJson.Integral ∧ r.toJson.depth ≤ 2 := by
  have hopt : ∀ x : Option String, (ofOption .str x).Integral ∧ (ofOption .str x).depth = 0 := fun x => by
    cases x <;> exact ⟨trivial, rfl⟩
  cases r with
  | header version id createdAt directory harness =>
    simp [Record.toJson, ofTagged, headerFields, Integral, IntegralMembers, depth, depthMembers, ofU64,
      Number.Integral, hopt]
  | entry id parent sequence timestamp operation payload =>
    simp [Record.toJson, ofTagged, entryFields, Integral, IntegralMembers, depth, depthMembers, ofU64,
      Number.Integral, hopt, payload.toJson_wellFormed]

end

/-- **A written record is read back**, and takes one line. -/
theorem Record.fromSlice_toVec (r : Record) : fromSlice r.toVec = some r := by
  obtain ⟨hi, hd⟩ := r.toJson_wellFormed
  rw [fromSlice, toVec, Json.parse_render hi (Nat.le_trans hd (by decide)), Option.bind_some, ofJson_toJson]

theorem Record.lf_not_mem_toVec (r : Record) : lf ∉ r.toVec := Json.lf_not_mem_render _

theorem Record.toVec_ne_nil (r : Record) : r.toVec ≠ [] := by
  obtain ⟨b, bs, h, -⟩ := Json.render_head r.toJson
  rw [toVec, h]
  exact List.cons_ne_nil _ _

end AgentHarness.SessionLog
