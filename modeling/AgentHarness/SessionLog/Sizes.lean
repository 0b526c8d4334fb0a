/-
How long the entries of a session can get: a fixed number of bytes, and six
for each byte of their text.
-/
import AgentHarness.Lib.Json.Size
import AgentHarness.Lib.Utf8
import AgentHarness.SessionLog.Projection

namespace AgentHarness.SessionLog

open Json Text

theorem validId_size {id : String} (h : validId id = true) : id.utf8ByteSize = 32 := by
  simp only [validId, Bool.and_eq_true, beq_iff_eq, Text.utf8_length] at h
  exact h.1

theorem FailureCode.name_length (c : FailureCode) : c.name.utf8ByteSize ≤ 32 := by
  cases c <;> decide

/-- An entry is its payload and what every entry has. -/
theorem entry_length_le {entryId operationId : String} {parent : Option String} (hentry : validId entryId = true)
    (hparent : ∀ id ∈ parent, validId id = true) (hoperation : validId operationId = true)
    (sequence timestamp : UInt64) (payload : Payload) :
    (Record.entry entryId parent sequence timestamp operationId payload).toVec.length ≤
      maxLength payload.toJson + 1500 := by
  have hid := validId_size hentry
  have hop := validId_size hoperation
  have hopt : maxLength (ofOption .str parent) ≤ 194 := by
    cases parent with
    | none => decide
    | some id =>
      have hsize := validId_size (hparent id rfl)
      simp only [ofOption, maxLength, hsize]
      omega
  have hkeys : maxLengthKeys ("record_type" :: Record.entryFields) ≤ 600 := by decide
  have htag : "entry".utf8ByteSize = 5 := rfl
  refine Nat.le_trans (length_render_le _) ?_
  rw [Record.toJson, maxLength_ofTagged rfl]
  simp only [maxLengthItems, maxLength, ofU64, Number.maxLength, hid, hop, htag]
  omega

theorem maxLength_userMessage (text : String) :
    maxLength (Payload.userMessage .openAiCodex text).toJson ≤ 6 * text.utf8ByteSize + 500 := by
  have hkeys : maxLengthKeys ("type" :: Payload.userFields) ≤ 200 := by decide
  have htag : "user_message".utf8ByteSize = 12 := rfl
  have hprovider : "openai-codex".utf8ByteSize = 12 := rfl
  rw [Payload.toJson, maxLength_ofTagged rfl]
  simp only [maxLengthItems, maxLength, Provider.toJson, htag, hprovider]
  omega

theorem maxLength_assistantMessage (text : String) :
    maxLength (Payload.assistantMessage .openAiCodex text .completed).toJson ≤ 6 * text.utf8ByteSize + 500 := by
  have hkeys : maxLengthKeys ("type" :: Payload.assistantFields) ≤ 250 := by decide
  have htag : "assistant_message".utf8ByteSize = 17 := rfl
  have hprovider : "openai-codex".utf8ByteSize = 12 := rfl
  have houtcome : "completed".utf8ByteSize = 9 := rfl
  rw [Payload.toJson, maxLength_ofTagged rfl]
  simp only [maxLengthItems, maxLength, Provider.toJson, CompletedOutcome.toJson, htag, hprovider, houtcome]
  omega

theorem maxLength_terminalFailure (code : FailureCode) :
    maxLength (Payload.terminalFailure .openAiCodex code code.diagnostic .failed).toJson ≤ 6 * maxDiagnosticBytes + 1000 := by
  have hkeys : maxLengthKeys ("type" :: Payload.failureFields) ≤ 400 := by decide
  have htag : "terminal_failure".utf8ByteSize = 16 := rfl
  have hprovider : "openai-codex".utf8ByteSize = 12 := rfl
  have houtcome : "failed".utf8ByteSize = 6 := rfl
  have hname := code.name_length
  have hdiagnostic := code.diagnostic_length
  rw [Payload.toJson, maxLength_ofTagged rfl]
  simp only [maxLengthItems, maxLength, Provider.toJson, FailureCode.toJson, FailedOutcome.toJson, htag, hprovider, houtcome]
  omega

section
variable {entryId userEntryId operationId : String} (hentry : validId entryId = true)
  (huser : validId userEntryId = true) (hoperation : validId operationId = true) (timestamp : UInt64)
include hentry hoperation

theorem userEntry_length_le (text : String) :
    (userEntry entryId timestamp operationId text).toVec.length ≤ 6 * text.utf8ByteSize + 2000 := by
  have hnone : ∀ id ∈ (none : Option String), validId id = true := fun _ hid => nomatch hid
  have h := entry_length_le hentry hnone hoperation 1 timestamp (.userMessage .openAiCodex text)
  have hpayload := maxLength_userMessage text
  rw [userEntry]
  omega

include huser

theorem assistantEntry_length_le (text : String) :
    (assistantEntry entryId userEntryId timestamp operationId text).toVec.length ≤ 6 * text.utf8ByteSize + 2000 := by
  have h := entry_length_le hentry (fun id hid => Option.some.inj hid ▸ huser) hoperation 2 timestamp
    (.assistantMessage .openAiCodex text .completed)
  have hpayload := maxLength_assistantMessage text
  rw [assistantEntry]
  omega

theorem failureEntry_length_le (code : FailureCode) :
    (failureEntry entryId userEntryId timestamp operationId code).toVec.length ≤ 6 * maxDiagnosticBytes + 2500 := by
  have h := entry_length_le hentry (fun id hid => Option.some.inj hid ▸ huser) hoperation 2 timestamp
    (.terminalFailure .openAiCodex code code.diagnostic .failed)
  have hpayload := maxLength_terminalFailure code
  rw [failureEntry]
  omega

end

/-! ## How long a text makes its entry -/

theorem userEntry_length (entryId operationId text : String) (timestamp : UInt64) :
    (userEntry entryId timestamp operationId text).toVec.length =
      (userEntry entryId timestamp operationId "").toVec.length + ((utf8 text).flatMap escapeByte).length := by
  have hempty : utf8 "" = [] := rfl
  simp only [userEntry, Record.toVec, Record.toJson, Payload.toJson, ofTagged, Record.entryFields, Payload.userFields,
    List.zip_cons_cons, List.zip_nil_left, render, renderMembers, renderString, hempty, List.flatMap_nil, List.length_append,
    List.length_cons, List.length_nil]
  omega

theorem assistantEntry_length (entryId userEntryId operationId text : String) (timestamp : UInt64) :
    (assistantEntry entryId userEntryId timestamp operationId text).toVec.length =
      (assistantEntry entryId userEntryId timestamp operationId "").toVec.length + ((utf8 text).flatMap escapeByte).length := by
  have hempty : utf8 "" = [] := rfl
  simp only [assistantEntry, Record.toVec, Record.toJson, Payload.toJson, ofTagged, Record.entryFields, Payload.assistantFields,
    List.zip_cons_cons, List.zip_nil_left, render, renderMembers, renderString, hempty, List.flatMap_nil, List.length_append,
    List.length_cons, List.length_nil]
  omega

/-- A letter stands for itself. -/
theorem escaped_length_replicate (n : Nat) :
    ((utf8 (String.ofList (List.replicate n 'a'))).flatMap escapeByte).length = n := by
  have hchar : (String.utf8EncodeChar 'a').flatMap escapeByte = [0x61] := by decide +kernel
  rw [utf8_ofList, List.flatMap_assoc, List.length_flatMap, List.map_replicate, hchar, List.sum_replicate_nat]
  simp

end AgentHarness.SessionLog
