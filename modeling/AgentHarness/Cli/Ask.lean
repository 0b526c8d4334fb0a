/-
A question that is asked, and its session: what the prompt's limit, the
decoder's limit for texts and the limits of a session file are to one
another. Every question that can be answered can be retained.
-/
import AgentHarness.SessionLog.RoundTrip
import AgentHarness.SessionLog.Sizes
import AgentHarness.Sse.Bounded
import AgentHarness.Sse.Stream

namespace AgentHarness.Cli

open Text Except Lines SessionLog

def maxPromptBytes : Nat := 32 * 1024

def validPrompt (prompt : String) : Bool := !(trim prompt).isEmpty && decide (prompt.utf8ByteSize ≤ maxPromptBytes)

/-- An outcome that asking can have: a text that the decoder returns, or any failure. -/
def Answerable : ProjectedTerminal → Prop
  | .assistant text => ∃ fromStr clock reads, Sse.decode fromStr .production clock reads = .ok text
  | .failure _ => True

/-- A question with all that is drawn for its session, and its outcome. -/
structure Asked where
  sessionId : String
  operationId : String
  userEntryId : String
  entryId : String
  valid : ∀ id ∈ [sessionId, operationId, userEntryId, entryId], validId id = true
  createdAtUnixMs : UInt64
  userTimestamp : UInt64
  timestamp : UInt64
  workingDirectory : Option String
  harnessVersion : String
  prompt : String
  outcome : ProjectedTerminal

namespace Asked

/-- The sources when the first records are written, before whatever else they give. -/
def sources (a : Asked) (ids : List String) (times : List UInt64) : Sources where
  ids := a.sessionId :: a.operationId :: a.userEntryId :: a.entryId :: ids
  times := a.createdAtUnixMs :: a.userTimestamp :: a.timestamp :: times
  workingDirectory := a.workingDirectory
  harnessVersion := a.harnessVersion

/-- The sources when the outcome is appended. -/
def laterSources (a : Asked) (ids : List String) (times : List UInt64) : Sources where
  ids := a.entryId :: ids
  times := a.timestamp :: times
  workingDirectory := a.workingDirectory
  harnessVersion := a.harnessVersion

def headerRecord (a : Asked) : Record := header a.sessionId a.createdAtUnixMs a.workingDirectory a.harnessVersion
def userRecord (a : Asked) : Record := userEntry a.userEntryId a.userTimestamp a.operationId a.prompt

def outcomeRecord (a : Asked) : Record :=
  match a.outcome with
  | .assistant text => assistantEntry a.entryId a.userEntryId a.timestamp a.operationId text
  | .failure code => failureEntry a.entryId a.userEntryId a.timestamp a.operationId code

def initial (a : Asked) : InitialRecords where
  sessionId := a.sessionId
  operationId := a.operationId
  userEntryId := a.userEntryId
  header := a.headerRecord.toVec ++ [lf]
  user := a.userRecord.toVec ++ [lf]

/-- The file with the outcome. -/
def file (a : Asked) : Bytes := terminated lf [a.headerRecord.toVec, a.userRecord.toVec, a.outcomeRecord.toVec]

/-- The session, when its ids differ. -/
def session (a : Asked) (h : [a.sessionId, a.operationId, a.userEntryId].Nodup) : Session where
  sessionId := a.sessionId
  operationId := a.operationId
  userEntryId := a.userEntryId
  createdAtUnixMs := a.createdAtUnixMs
  userTimestamp := a.userTimestamp
  workingDirectory := a.workingDirectory
  harnessVersion := a.harnessVersion
  prompt := a.prompt
  valid := fun id hid => a.valid id (List.mem_append_left [a.entryId] hid)
  distinct := h

/-- The end of that session, when its id is a new one. -/
def terminal (a : Asked) (h : [a.sessionId, a.operationId, a.userEntryId].Nodup)
    (hfresh : a.entryId ∉ [a.sessionId, a.userEntryId, a.operationId]) : (a.session h).Terminal where
  entryId := a.entryId
  timestamp := a.timestamp
  outcome := a.outcome
  valid := a.valid a.entryId (by simp)
  fresh := hfresh

/-- Every line and the file are within the limits of the writer and the reader. -/
structure Fits (a : Asked) : Prop where
  header : a.headerRecord.toVec.length ≤ maxRecordBytes
  user : a.userRecord.toVec.length ≤ maxRecordBytes
  outcome : a.outcomeRecord.toVec.length ≤ maxRecordBytes
  file : a.file.length ≤ maxSessionBytes

variable {a : Asked}

/-! ## The sizes of the records -/

theorem length_file (a : Asked) : a.file.length =
    a.headerRecord.toVec.length + 1 + (a.userRecord.toVec.length + 1) + (a.outcomeRecord.toVec.length + 1) := by
  simp [file]
  omega

theorem userRecord_length_le (hprompt : validPrompt a.prompt = true) :
    a.userRecord.toVec.length ≤ 6 * maxPromptBytes + 2000 := by
  have hvalid := a.valid
  simp only [List.mem_cons, List.not_mem_nil, or_false, forall_eq_or_imp, forall_eq] at hvalid
  obtain ⟨-, hoperation, huser, -⟩ := hvalid
  have hlen := userEntry_length_le huser hoperation a.userTimestamp a.prompt
  simp only [validPrompt, Bool.and_eq_true, decide_eq_true_eq] at hprompt
  rw [userRecord]
  omega

theorem outcomeRecord_length_le (hanswer : Answerable a.outcome) :
    a.outcomeRecord.toVec.length ≤ 6 * Sse.maxTextBytes.toNat + 2000 := by
  have hvalid := a.valid
  simp only [List.mem_cons, List.not_mem_nil, or_false, forall_eq_or_imp, forall_eq] at hvalid
  obtain ⟨-, hoperation, huser, hentry⟩ := hvalid
  cases ho : a.outcome with
  | assistant text =>
    rw [ho] at hanswer
    obtain ⟨fromStr, clock, reads, hdecode⟩ := hanswer
    have htext : text.utf8ByteSize ≤ Sse.maxTextBytes.toNat := Sse.decode_bounded hdecode
    have hlen := assistantEntry_length_le hentry huser hoperation a.timestamp text
    simp only [outcomeRecord, ho]
    omega
  | failure code =>
    have hroom : 6 * maxDiagnosticBytes + 2500 ≤ 6 * Sse.maxTextBytes.toNat + 2000 := by decide
    have hlen := failureEntry_length_le hentry huser hoperation a.timestamp code
    simp only [outcomeRecord, ho]
    exact Nat.le_trans hlen hroom

theorem fits (hprompt : validPrompt a.prompt = true) (hheader : a.headerRecord.toVec.length ≤ 1024 * 1024)
    (hanswer : Answerable a.outcome) : a.Fits := by
  have huser := userRecord_length_le hprompt
  have houtcome := outcomeRecord_length_le hanswer
  have htext : Sse.maxTextBytes.toNat = 262144 := rfl
  have hfile := a.length_file
  unfold maxPromptBytes at huser
  rw [htext] at houtcome
  refine ⟨?_, ?_, ?_, ?_⟩ <;> simp only [maxRecordBytes, maxSessionBytes] <;> omega

/-! ## What the writer does -/

theorem serializeLine_of_le {r : Record} (h : r.toVec.length ≤ maxRecordBytes) :
    serializeLine r = some (r.toVec ++ [lf]) := serializeLine_eq_some.mpr ⟨h, rfl⟩

/-- With sizes that fit, the first records are refused for ids that do not differ only. -/
theorem initialRecords_fits (h : a.Fits) (ids : List String) (times : List UInt64) :
    initialRecords (a.sources ids times) a.prompt =
      if [a.sessionId, a.operationId, a.userEntryId].Nodup then .ok (a.initial, a.laterSources ids times)
      else .error .storeUnavailable := by
  have hvalid := a.valid
  simp only [List.mem_cons, List.not_mem_nil, or_false, forall_eq_or_imp, forall_eq] at hvalid
  have hheader : serializeLine (header a.sessionId a.createdAtUnixMs a.workingDirectory a.harnessVersion) =
      some (a.headerRecord.toVec ++ [lf]) := serializeLine_of_le h.header
  have huser : serializeLine (userEntry a.userEntryId a.userTimestamp a.operationId a.prompt) =
      some (a.userRecord.toVec ++ [lf]) := serializeLine_of_le h.user
  have hsize : ¬(a.headerRecord.toVec ++ [lf]).length + (a.userRecord.toVec ++ [lf]).length > maxSessionBytes := by
    have hfile := h.file
    rw [length_file] at hfile
    simp only [List.length_append, List.length_singleton]
    omega
  by_cases hdistinct : [a.sessionId, a.operationId, a.userEntryId].Nodup
  · have hdedup : ([a.sessionId, a.operationId, a.userEntryId].dedup.length != 3) = false := by
      rw [List.dedup_eq_self.mpr hdistinct]
      rfl
    rw [if_pos hdistinct]
    simp only [initialRecords, sources, Sources.nextId, Sources.now, hvalid, if_true, okOr_some, ok_bind, hdedup,
      rejectIf_false, hheader, huser, hsize, decide_false]
    rfl
  · have hdedup : ([a.sessionId, a.operationId, a.userEntryId].dedup.length != 3) = true := by
      rw [bne_iff_ne]
      intro hlen
      have hself := (List.dedup_sublist [a.sessionId, a.operationId, a.userEntryId]).eq_of_length hlen
      exact hdistinct (List.dedup_eq_self.mp hself)
    rw [if_neg hdistinct]
    simp only [initialRecords, sources, Sources.nextId, hvalid, if_true, okOr_some, ok_bind, hdedup, rejectIf_true,
      error_bind]

/-- The outcome is refused for an id that is not new only. -/
theorem append_fits (h : a.Fits) (ids : List String) (times : List UInt64) :
    Session.append (a.initial.writer (a.laterSources ids times)) a.outcome (a.initial.header ++ a.initial.user) =
      if a.entryId ∈ [a.sessionId, a.userEntryId, a.operationId] then .error .storeUnavailable else .ok a.file := by
  have hvalid := a.valid a.entryId (by simp)
  have hfile : a.initial.header ++ a.initial.user ++ (a.outcomeRecord.toVec ++ [lf]) = a.file := by
    simp [initial, file]
  have hsize : ¬(a.initial.header ++ a.initial.user).length + (a.outcomeRecord.toVec ++ [lf]).length > maxSessionBytes := by
    rw [← List.length_append, hfile]
    exact Nat.not_lt.mpr h.file
  have happend : SessionWriter.appendTerminal (a.initial.header ++ a.initial.user) a.outcomeRecord = .ok a.file := by
    simp only [SessionWriter.appendTerminal, serializeLine_of_le h.outcome, okOr_some, ok_bind, hsize, decide_false,
      rejectIf_false]
    rw [hfile]
    rfl
  have hrecord : Session.append (a.initial.writer (a.laterSources ids times)) a.outcome
      (a.initial.header ++ a.initial.user) =
      (rejectIf (a.entryId == a.sessionId || a.entryId == a.userEntryId || a.entryId == a.operationId)
        AppendError.storeUnavailable : Except AppendError Unit) >>= fun _ =>
      SessionWriter.appendTerminal (a.initial.header ++ a.initial.user) a.outcomeRecord := by
    unfold outcomeRecord
    cases ho : a.outcome with
    | assistant text =>
      simp only [Session.append, SessionWriter.appendAssistant, SessionWriter.assistantRecord,
        SessionWriter.terminalRecord, InitialRecords.writer, laterSources, Sources.nextId, Sources.now, hvalid, if_true,
        okOr_some, ok_bind, initial]
      cases a.entryId == a.sessionId || a.entryId == a.userEntryId || a.entryId == a.operationId <;> rfl
    | failure code =>
      simp only [Session.append, SessionWriter.appendFailure, SessionWriter.failureRecord,
        SessionWriter.terminalRecord, InitialRecords.writer, laterSources, Sources.nextId, Sources.now, hvalid, if_true,
        okOr_some, ok_bind, initial]
      cases a.entryId == a.sessionId || a.entryId == a.userEntryId || a.entryId == a.operationId <;> rfl
  rw [hrecord, happend]
  by_cases hmem : a.entryId ∈ [a.sessionId, a.userEntryId, a.operationId]
  · have hsame : (a.entryId == a.sessionId || a.entryId == a.userEntryId || a.entryId == a.operationId) = true := by
      simpa [or_assoc] using hmem
    rw [if_pos hmem, hsame]
    rfl
  · have hnew : (a.entryId == a.sessionId || a.entryId == a.userEntryId || a.entryId == a.operationId) = false := by
      simpa [and_assoc] using hmem
    rw [if_neg hmem, hnew]
    rfl

/-- The file is read as the session with its outcome. -/
theorem project_file (h : a.Fits) (hdistinct : [a.sessionId, a.operationId, a.userEntryId].Nodup)
    (hfresh : a.entryId ∉ [a.sessionId, a.userEntryId, a.operationId]) :
    project a.file a.sessionId = .ok ((a.session hdistinct).shown (some a.outcome) false) := by
  have hrecord : (a.terminal hdistinct hfresh).record = a.outcomeRecord := rfl
  have hbytes : (a.session hdistinct).bytes (some (a.terminal hdistinct hfresh)) = a.file := rfl
  have hlines : (a.session hdistinct).LinesFit (some (a.terminal hdistinct hfresh)) := by
    intro r hr
    simp only [Session.records, Option.map_some, Option.toList_some, List.mem_cons, List.not_mem_nil, or_false] at hr
    rcases hr with rfl | rfl | rfl
    · exact h.header
    · exact h.user
    · exact h.outcome
  have hproject := (a.session hdistinct).project_bytes hlines (hbytes ▸ h.file)
  rw [hbytes] at hproject
  exact hproject

end Asked

/-- **Every question that can be answered can be retained**: ids that are not
new are all its records are refused for, and what is written of it is within
the limits of the reader. -/
theorem question_retained {a : Asked} (hprompt : validPrompt a.prompt = true)
    (hheader : a.headerRecord.toVec.length ≤ 1024 * 1024) (hanswer : Answerable a.outcome) (ids : List String)
    (times : List UInt64) :
    (initialRecords (a.sources ids times) a.prompt =
      if [a.sessionId, a.operationId, a.userEntryId].Nodup then .ok (a.initial, a.laterSources ids times)
      else .error .storeUnavailable) ∧
    (Session.append (a.initial.writer (a.laterSources ids times)) a.outcome (a.initial.header ++ a.initial.user) =
      if a.entryId ∈ [a.sessionId, a.userEntryId, a.operationId] then .error .storeUnavailable else .ok a.file) ∧
    a.Fits ∧
    ∀ hdistinct : [a.sessionId, a.operationId, a.userEntryId].Nodup,
      a.entryId ∉ [a.sessionId, a.userEntryId, a.operationId] →
      project a.file a.sessionId = .ok ((a.session hdistinct).shown (some a.outcome) false) := by
  have hfits := Asked.fits hprompt hheader hanswer
  refine ⟨Asked.initialRecords_fits hfits ids times, Asked.append_fits hfits ids times, hfits, ?_⟩
  intro hdistinct hfresh
  exact Asked.project_file hfits hdistinct hfresh

/-! ## A question and its answer -/

def sampleAsked : Asked where
  sessionId := sampleSession.sessionId
  operationId := sampleSession.operationId
  userEntryId := sampleSession.userEntryId
  entryId := sampleTerminal.entryId
  valid := by decide +kernel
  createdAtUnixMs := 1700000000000
  userTimestamp := 1700000000001
  timestamp := 1700000000002
  workingDirectory := some "/work"
  harnessVersion := "0.1.0"
  prompt := "say \"é\"\n"
  outcome := .assistant "é"

theorem question_retained_sample :
    initialRecords (sampleAsked.sources [] []) "say \"é\"\n" = .ok (sampleAsked.initial, sampleAsked.laterSources [] []) ∧
    project sampleAsked.file sampleAsked.sessionId = .ok (sampleSession.shown (some (.assistant "é")) false) := by
  have hprompt : validPrompt sampleAsked.prompt = true := by decide
  have hheader : sampleAsked.headerRecord.toVec.length ≤ 1024 * 1024 := by decide +kernel
  have hanswer : Answerable sampleAsked.outcome := ⟨_, _, _, Sse.sample_decoded⟩
  obtain ⟨hinitial, -, -, hproject⟩ := question_retained hprompt hheader hanswer [] []
  exact ⟨hinitial, hproject (by decide) (by decide)⟩

end AgentHarness.Cli
