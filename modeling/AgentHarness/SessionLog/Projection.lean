/-
What a reader makes of a session file: its whole lines are the records, the
rest after the last of them is passed over, and every link between the
records is checked again.
-/
import Mathlib.Data.List.Dedup
import AgentHarness.Lib.Lines
import AgentHarness.SessionLog.Format

namespace AgentHarness.SessionLog

open Text Except Lines

inductive SessionStatus where
  | completed
  | failed
  | interrupted
  deriving DecidableEq, Repr

inductive ProjectedTerminal where
  | assistant (text : String)
  | failure (code : FailureCode)
  deriving DecidableEq, Repr

structure SessionProjection where
  sessionId : String
  createdAtUnixMs : UInt64
  prompt : String
  status : SessionStatus
  terminal : Option ProjectedTerminal
  deriving DecidableEq, Repr

structure ShowResult where
  projection : SessionProjection
  trailingFragment : Bool
  deriving DecidableEq, Repr

inductive ProjectionError where
  | unsupportedVersion
  | corrupt
  deriving DecidableEq, Repr

/-- 32 hexadecimal digits in lower case. -/
def validId (value : String) : Bool :=
  (utf8 value).length == 32 && (utf8 value).all fun byte => (0x30 ≤ byte && byte ≤ 0x39) || (0x61 ≤ byte && byte ≤ 0x66)

/-! ## Reading the records -/

section
variable (fromSlice : Bytes → Option Record)

def pushRecord (records : List Record) (line : Bytes) : Except ProjectionError (List Record) := do
  rejectIf line.isEmpty .corrupt
  rejectIf (line.length > maxRecordBytes || records.length == 3) .corrupt
  return records ++ [← okOr (fromSlice line) .corrupt]

/-- The records of the whole lines, and whether anything comes after them. -/
def parseRecords (bytes : Bytes) : Except ProjectionError (List Record × Bool) := do
  rejectIf (bytes.length > maxSessionBytes) .corrupt
  let index ← okOr (rposition (· == lf) bytes) .corrupt
  let completeEnd := index + 1
  let trailingFragment := completeEnd != bytes.length
  let complete := bytes.take (completeEnd - 1)
  rejectIf complete.isEmpty .corrupt
  let records ← (complete.splitOn lf).foldlM (pushRecord fromSlice) []
  return (records, trailingFragment)

end

def projectTerminal (record : Option Record) (sessionId userEntryId operationId : String) :
    Except ProjectionError (Option ProjectedTerminal) :=
  match record with
  | none => .ok none
  | some (.entry entryId parentEntryId sequence _ terminalOperationId payload) => do
    rejectIf (!validId entryId || entryId == sessionId || entryId == userEntryId || entryId == operationId ||
      parentEntryId != some userEntryId || sequence != 2 || terminalOperationId != operationId) .corrupt
    match payload with
    | .assistantMessage _ text _ => .ok (some (.assistant text))
    | .terminalFailure _ failureCode diagnostic _ =>
      if diagnostic.utf8ByteSize ≤ maxDiagnosticBytes && diagnostic == failureCode.diagnostic then
        .ok (some (.failure failureCode))
      else .error .corrupt
    | .userMessage .. => .error .corrupt
  | some (.header ..) => .error .corrupt

def SessionStatus.ofTerminal : Option ProjectedTerminal → SessionStatus
  | some (.assistant _) => .completed
  | some (.failure _) => .failed
  | none => .interrupted

/-- What `project` makes of the records it has read. -/
def projectRecords (records : List Record) (trailingFragment : Bool) (expectedSessionId : String) :
    Except ProjectionError ShowResult :=
  match records with
  | .header version sessionId createdAtUnixMs _ _ :: records => do
    rejectIf (version != formatVersion) .unsupportedVersion
    rejectIf (sessionId != expectedSessionId || !validId sessionId) .corrupt
    match records with
    | .entry userEntryId parentEntryId sequence _ operationId payload :: records =>
      rejectIf (!validId userEntryId || !validId operationId || parentEntryId.isSome || sequence != 1) .corrupt
      match payload with
      | .userMessage _ prompt =>
        rejectIf ([sessionId, userEntryId, operationId].dedup.length != 3) .corrupt
        let terminal ← projectTerminal records.head? sessionId userEntryId operationId
        return {
          projection := { sessionId, createdAtUnixMs, prompt, status := .ofTerminal terminal, terminal }
          trailingFragment }
      | _ => .error .corrupt
    | _ => .error .corrupt
  | _ => .error .corrupt

/-- A session file through any reader of one line. -/
def projectWith (fromSlice : Bytes → Option Record) (bytes : Bytes) (expectedSessionId : String) :
    Except ProjectionError ShowResult := do
  let (records, trailingFragment) ← parseRecords fromSlice bytes
  projectRecords records trailingFragment expectedSessionId

def project : Bytes → String → Except ProjectionError ShowResult := projectWith Record.fromSlice

/-- What is shown is the session that was asked for, by an id that can be one. -/
theorem project_id {bytes : Bytes} {id : String} {r : ShowResult} (h : project bytes id = .ok r) :
    r.projection.sessionId = id ∧ validId id = true := by
  simp only [project, projectWith, bind_ok_iff, Prod.exists] at h
  obtain ⟨records, trailingFragment, -, h⟩ := h
  unfold projectRecords at h
  split at h
  · simp only [bind_ok_iff, rejectIf_ok_iff, Bool.or_eq_false_iff, bne_eq_false_iff_eq] at h
    obtain ⟨-, -, -, ⟨hid, hvalid⟩, h⟩ := h
    split at h
    · simp only [bind_ok_iff] at h
      obtain ⟨-, -, h⟩ := h
      split at h
      · simp only [bind_ok_iff, pure_ok_iff] at h
        obtain ⟨-, -, terminal, -, rfl⟩ := h
        rw [Bool.not_eq_false'] at hvalid
        exact ⟨hid, hid ▸ hvalid⟩
      · cases h
    · cases h
  · cases h

theorem project_sessionId {bytes : Bytes} {id : String} {r : ShowResult} (h : project bytes id = .ok r) :
    r.projection.sessionId = id := (project_id h).1

/-! ## Reading what was written -/

section
variable {fromSlice : Bytes → Option Record} {lines : List Bytes} {rs : List Record} {rest : Bytes}

theorem parseRecords_tooLong {bytes : Bytes} (h : maxSessionBytes < bytes.length) :
    parseRecords fromSlice bytes = .error .corrupt := by
  simp [parseRecords, h]

/-- Nothing is read before a first line is whole. -/
theorem parseRecords_noLine (hrest : lf ∉ rest) : parseRecords fromSlice rest = .error .corrupt := by
  have hpos : rposition (· == lf) rest = none := rposition_eq_none fun y hy => by
    rw [beq_eq_false_iff_ne]
    intro heq
    subst heq
    exact hrest hy
  by_cases hlen : maxSessionBytes < rest.length
  · exact parseRecords_tooLong hlen
  · simp [parseRecords, hlen, hpos]

/-- What is read of whole lines and a rest. -/
theorem parseRecords_lines (hne : lines ≠ []) (hlines : ∀ line ∈ lines, lf ∉ line) (hrest : lf ∉ rest)
    (hsize : (terminated lf lines ++ rest).length ≤ maxSessionBytes) :
    parseRecords fromSlice (terminated lf lines ++ rest) =
      (lines.foldlM (pushRecord fromSlice) []).map fun records => (records, !rest.isEmpty) := by
  have hpos := rposition_terminated hne hrest
  have htake : (terminated lf lines ++ rest).take ([lf].intercalate lines).length = [lf].intercalate lines := by
    rw [terminated_eq_intercalate hne, List.append_assoc, List.take_left]
  have hsplit : ([lf].intercalate lines).splitOn lf = lines := List.splitOn_intercalate lf hlines hne
  have htrail : (([lf].intercalate lines).length + 1 != (terminated lf lines ++ rest).length) = !rest.isEmpty := by
    rw [terminated_eq_intercalate hne]
    cases rest <;> simp
  have hfits : decide ((terminated lf lines ++ rest).length > maxSessionBytes) = false :=
    decide_eq_false (Nat.not_lt.mpr hsize)
  simp only [parseRecords, hfits, rejectIf_false, ok_bind, hpos, okOr_some, Nat.add_sub_cancel, htake, hsplit, htrail]
  by_cases hempty : [lf].intercalate lines = []
  · -- nothing before the last new line: one line, and an empty one
    obtain rfl : lines = [[]] := by
      rw [← hsplit, hempty]
      rfl
    rfl
  · rw [List.isEmpty_eq_false_iff.mpr hempty]
    cases lines.foldlM (pushRecord fromSlice) [] <;> rfl

theorem pushRecord_ok_iff {acc acc' : List Record} {line : Bytes} :
    pushRecord fromSlice acc line = .ok acc' ↔ line ≠ [] ∧ line.length ≤ maxRecordBytes ∧ acc.length ≠ 3 ∧
      ∃ r, fromSlice line = some r ∧ acc' = acc ++ [r] := by
  simp only [pushRecord, bind_pure_comp, bind_ok_iff, map_ok_iff, rejectIf_ok_iff, okOr_ok_iff, exists_const,
    List.isEmpty_eq_false_iff, Bool.or_eq_false_iff, decide_eq_false_iff_not, Nat.not_lt, beq_eq_false_iff_ne, and_assoc,
    eq_comm (a := acc')]

/-- Lines are read one at a time, as long as there are no more than three. -/
theorem foldlM_pushRecord_ok_iff {acc records : List Record} (hacc : acc.length ≤ 3) :
    lines.foldlM (pushRecord fromSlice) acc = .ok records ↔ (∀ line ∈ lines, line ≠ [] ∧ line.length ≤ maxRecordBytes) ∧
      acc.length + lines.length ≤ 3 ∧ ∃ rs, lines.map fromSlice = rs.map some ∧ records = acc ++ rs := by
  induction lines generalizing acc with
  | nil => simp [hacc, eq_comm (a := records), pure, Except.pure]
  | cons line lines ih =>
    simp only [List.foldlM_cons, bind_ok_iff, pushRecord_ok_iff, List.mem_cons, forall_eq_or_imp, List.length_cons,
      List.map_cons]
    constructor
    · intro h
      obtain ⟨_, ⟨hne, hmax, hlen, r, hr, rfl⟩, h⟩ := h
      obtain ⟨hlines, hsum, rs, hrs, rfl⟩ := (ih (by simp; omega)).mp h
      rw [List.length_append, List.length_singleton] at hsum
      exact ⟨⟨⟨hne, hmax⟩, hlines⟩, by omega, r :: rs, by rw [List.map_cons, hr, hrs], by simp⟩
    · intro h
      obtain ⟨⟨⟨hne, hmax⟩, hlines⟩, hsum, rs, hrs, rfl⟩ := h
      cases rs with
      | nil => exact absurd hrs (List.cons_ne_nil _ _)
      | cons r rs =>
        obtain ⟨hr, hrs⟩ := List.cons.inj hrs
        refine ⟨acc ++ [r], ⟨hne, hmax, by omega, r, hr, rfl⟩, (ih (by simp; omega)).mpr ⟨hlines, ?_, rs, hrs, by simp⟩⟩
        rw [List.length_append, List.length_singleton]
        omega

/-- The records a file begins with. -/
theorem parseRecords_written (hne : rs ≠ []) (hlen : rs.length ≤ 3) (hmax : ∀ r ∈ rs, r.toVec.length ≤ maxRecordBytes)
    (hrest : lf ∉ rest) (hsize : (terminated lf (rs.map Record.toVec) ++ rest).length ≤ maxSessionBytes) :
    parseRecords Record.fromSlice (terminated lf (rs.map Record.toVec) ++ rest) = .ok (rs, !rest.isEmpty) := by
  have hlines : ∀ line ∈ rs.map Record.toVec, lf ∉ line ∧ line ≠ [] ∧ line.length ≤ maxRecordBytes := by
    intro line h
    obtain ⟨r, hr, rfl⟩ := List.mem_map.mp h
    exact ⟨r.lf_not_mem_toVec, r.toVec_ne_nil, hmax r hr⟩
  have hread : (rs.map Record.toVec).map Record.fromSlice = rs.map some := by
    simp [Record.fromSlice_toVec]
  have hfold : (rs.map Record.toVec).foldlM (pushRecord Record.fromSlice) [] = .ok rs :=
    (foldlM_pushRecord_ok_iff (by simp)).mpr
      ⟨fun line h => (hlines line h).2, by simpa using hlen, rs, hread, rfl⟩
  rw [parseRecords_lines (by simpa using hne) (fun line h => (hlines line h).1) hrest hsize,
    hfold]
  rfl

end

end AgentHarness.SessionLog
