/-
The reader accepts what the writer can write and nothing else: a file is
shown exactly when its whole lines are the records of a session, whatever
decodes the lines.
-/
import AgentHarness.SessionLog.RoundTrip

namespace AgentHarness.SessionLog

open Text Except Lines

section
variable (fromSlice : Bytes → Option Record)

/-- The whole lines of a file, each one the reader allows, decode to some
records, and the rest comes after them. -/
structure Decoded (bytes : Bytes) (records : List Record) (rest : Bytes) : Prop where
  size : bytes.length ≤ maxSessionBytes
  noLine : lf ∉ rest
  lines : ∃ lines, bytes = terminated lf lines ++ rest ∧
    (∀ line ∈ lines, lf ∉ line ∧ line ≠ [] ∧ line.length ≤ maxRecordBytes) ∧ lines.map fromSlice = records.map some

end

section
variable {fromSlice : Bytes → Option Record} {bytes rest : Bytes} {records : List Record} {trailingFragment : Bool}
  {id : String} {r : ShowResult}

theorem parseRecords_ok_iff : parseRecords fromSlice bytes = .ok (records, trailingFragment) ↔
    ∃ rest, Decoded fromSlice bytes records rest ∧ records ≠ [] ∧ records.length ≤ 3 ∧ trailingFragment = !rest.isEmpty := by
  have hread : ∀ {lines : List Bytes} {rest : Bytes}, lines ≠ [] → (∀ line ∈ lines, lf ∉ line) → lf ∉ rest →
      (terminated lf lines ++ rest).length ≤ maxSessionBytes →
      (parseRecords fromSlice (terminated lf lines ++ rest) = .ok (records, trailingFragment) ↔
        ((∀ line ∈ lines, line ≠ [] ∧ line.length ≤ maxRecordBytes) ∧ lines.length ≤ 3 ∧
          lines.map fromSlice = records.map some) ∧ trailingFragment = !rest.isEmpty) := by
    intro lines rest hne hlines hrest hsize
    have hfold : lines.foldlM (pushRecord fromSlice) [] = .ok records ↔ _ :=
      foldlM_pushRecord_ok_iff (by simp)
    simp only [List.length_nil, Nat.zero_add, List.nil_append, exists_eq_right'] at hfold
    rw [parseRecords_lines hne hlines hrest hsize, ← hfold]
    cases lines.foldlM (pushRecord fromSlice) [] <;> simp [Except.map, eq_comm]
  constructor
  · intro h
    obtain ⟨lines, rest, rfl, hlines, hrest⟩ := exists_terminated lf bytes
    have hsize : (terminated lf lines ++ rest).length ≤ maxSessionBytes := by
      by_contra hlong
      rw [parseRecords_tooLong (Nat.not_le.mp hlong)] at h
      cases h
    have hne : lines ≠ [] := by
      intro heq
      subst heq
      rw [terminated_nil, List.nil_append, parseRecords_noLine hrest] at h
      cases h
    obtain ⟨⟨hfit, hlen, hmap⟩, htrail⟩ := (hread hne hlines hrest hsize).mp h
    have hlength : lines.length = records.length := by simpa using congrArg List.length hmap
    refine ⟨rest, ⟨hsize, hrest, lines, rfl, fun line hl => ⟨hlines line hl, hfit line hl⟩, hmap⟩, ?_, by omega, htrail⟩
    intro heq
    subst heq
    exact hne (List.length_eq_zero_iff.mp hlength)
  · intro h
    obtain ⟨rest, ⟨hsize, hrest, lines, rfl, hlines, hmap⟩, hne, hlen, htrail⟩ := h
    have hlength : lines.length = records.length := by simpa using congrArg List.length hmap
    have hlines' : lines ≠ [] := by
      intro heq
      subst heq
      exact hne (List.length_eq_zero_iff.mp hlength.symm)
    exact (hread hlines' (fun line h => (hlines line h).1) hrest hsize).mpr
      ⟨⟨fun line h => (hlines line h).2, by omega, hmap⟩, htrail⟩

/-- Whatever cannot be read is corrupt. -/
theorem parseRecords_error {e : ProjectionError} (h : parseRecords fromSlice bytes = .error e) : e = .corrupt := by
  have hpush : ∀ acc line, pushRecord fromSlice acc line = .error e → e = .corrupt := by
    intro acc line h
    simp only [pushRecord, bind_pure_comp, bind_error_iff, map_error_iff, rejectIf_error_iff, okOr_error_iff] at h
    rcases h with ⟨-, rfl⟩ | ⟨-, -, ⟨-, rfl⟩ | ⟨-, -, -, rfl⟩⟩ <;> rfl
  simp only [parseRecords, bind_pure_comp, bind_error_iff, map_error_iff, rejectIf_error_iff, okOr_error_iff] at h
  rcases h with ⟨-, rfl⟩ | ⟨-, -, ⟨-, rfl⟩ | ⟨index, -, ⟨-, rfl⟩ | ⟨-, -, h⟩⟩⟩
  · rfl
  · rfl
  · rfl
  · exact foldlM_error hpush h

/-! ## The records a reader accepts -/

namespace Session
variable (s : Session)

/-- The end is one the writer builds for this session. -/
theorem projectTerminal_ok_iff {record : Option Record} {terminal : Option ProjectedTerminal} :
    projectTerminal record s.sessionId s.userEntryId s.operationId = .ok terminal ↔
      ∃ t : Option (Terminal s), record = t.map Terminal.record ∧ terminal = t.map Terminal.outcome := by
  constructor
  · intro h
    unfold projectTerminal at h
    split at h
    · cases h
      exact ⟨none, rfl, rfl⟩
    · rename_i entryId parentEntryId sequence timestamp operationId payload
      simp only [bind_ok_iff, rejectIf_ok_iff, Bool.or_eq_false_iff, Bool.not_eq_false', beq_eq_false_iff_ne,
        bne_eq_false_iff_eq, exists_const, and_assoc] at h
      obtain ⟨hvalid, h₁, h₂, h₃, rfl, rfl, rfl, h⟩ := h
      have hfresh : entryId ∉ [s.sessionId, s.userEntryId, s.operationId] := by simp [h₁, h₂, h₃]
      split at h
      · rename_i provider text outcome
        cases h
        exact ⟨some { entryId, timestamp, outcome := .assistant text, valid := hvalid, fresh := hfresh }, rfl, rfl⟩
      · rename_i provider code diagnostic outcome
        simp only [Bool.and_eq_true, beq_iff_eq] at h
        split at h
        · rename_i hdiagnostic
          cases h
          obtain ⟨-, rfl⟩ := hdiagnostic
          exact ⟨some { entryId, timestamp, outcome := .failure code, valid := hvalid, fresh := hfresh }, rfl, rfl⟩
        · cases h
      · cases h
    · cases h
  · intro h
    obtain ⟨t, rfl, rfl⟩ := h
    exact s.projectTerminal_record t

end Session

theorem projectTerminal_error {record : Option Record} {sessionId userEntryId operationId : String} {e : ProjectionError}
    (h : projectTerminal record sessionId userEntryId operationId = .error e) : e = .corrupt := by
  unfold projectTerminal at h
  split at h
  · cases h
  · simp only [bind_error_iff, rejectIf_error_iff] at h
    rcases h with ⟨-, rfl⟩ | ⟨-, -, h⟩
    · rfl
    · split at h
      · cases h
      · split at h <;> cases h
        rfl
      · cases h
        rfl
  · cases h
    rfl

theorem projectRecords_ok_iff (hlen : records.length ≤ 3) : projectRecords records trailingFragment id = .ok r ↔
    ∃ (s : Session) (t : Option s.Terminal), s.sessionId = id ∧ records = s.records t ∧
      r = s.shown (t.map Session.Terminal.outcome) trailingFragment := by
  constructor
  · intro h
    unfold projectRecords at h
    split at h
    · rename_i version sessionId createdAtUnixMs workingDirectory harnessVersion records
      simp only [bind_ok_iff, rejectIf_ok_iff, Bool.or_eq_false_iff, Bool.not_eq_false', bne_eq_false_iff_eq,
        exists_const, and_assoc] at h
      obtain ⟨rfl, hid, hsession, h⟩ := h
      split at h
      · rename_i userEntryId parentEntryId sequence userTimestamp operationId payload records
        simp only [bind_ok_iff, rejectIf_ok_iff, Bool.or_eq_false_iff, Bool.not_eq_false', bne_eq_false_iff_eq,
          Option.isSome_eq_false_iff, Option.isNone_iff_eq_none, exists_const, and_assoc] at h
        obtain ⟨huser, hoperation, rfl, rfl, h⟩ := h
        split at h
        · rename_i provider prompt
          simp only [bind_ok_iff, rejectIf_ok_iff, bne_eq_false_iff_eq, pure_ok_iff, exists_const] at h
          obtain ⟨hdedup, terminal, hterminal, rfl⟩ := h
          have hnodup : [sessionId, userEntryId, operationId].Nodup := by
            rw [← (List.dedup_sublist _).eq_of_length hdedup]
            exact List.nodup_dedup _
          let s : Session :=
            { sessionId, operationId, userEntryId, createdAtUnixMs, userTimestamp, workingDirectory, harnessVersion, prompt
              valid := by simp [hsession, huser, hoperation]
              distinct := (List.Perm.cons _ (List.Perm.swap _ _ _)).nodup_iff.mp hnodup }
          obtain ⟨t, ht, rfl⟩ := s.projectTerminal_ok_iff.mp hterminal
          have htail : records = (t.map Session.Terminal.record).toList := by
            rw [← ht]
            cases records with
            | nil => rfl
            | cons record records =>
              simp only [List.length_cons] at hlen
              obtain rfl : records = [] := List.length_eq_zero_iff.mp (by omega)
              rfl
          refine ⟨s, t, hid, by rw [htail]; rfl, ?_⟩
          cases t with
          | none => rfl
          | some t => cases ho : t.outcome <;> simp [Session.shown, SessionStatus.ofTerminal, ho, s]
        · cases h
      · cases h
    · cases h
  · intro h
    obtain ⟨s, t, rfl, rfl, rfl⟩ := h
    exact s.projectRecords_records t trailingFragment

/-- A version is looked at before anything else of the records. -/
theorem projectRecords_unsupportedVersion_iff :
    projectRecords records trailingFragment id = .error .unsupportedVersion ↔
      ∃ version sessionId createdAtUnixMs workingDirectory harnessVersion tail,
        records = .header version sessionId createdAtUnixMs workingDirectory harnessVersion :: tail ∧
          version ≠ formatVersion := by
  constructor
  · intro h
    unfold projectRecords at h
    split at h
    · rename_i version sessionId createdAtUnixMs workingDirectory harnessVersion records
      refine ⟨version, sessionId, createdAtUnixMs, workingDirectory, harnessVersion, records, rfl, ?_⟩
      intro heq
      subst heq
      simp only [bne_self_eq_false, rejectIf_false, ok_bind, bind_error_iff, rejectIf_error_iff, reduceCtorEq, and_false,
        false_or] at h
      obtain ⟨-, -, h⟩ := h
      split at h
      · simp only [bind_error_iff, rejectIf_error_iff, reduceCtorEq, and_false, false_or] at h
        obtain ⟨-, -, h⟩ := h
        split at h
        · simp only [bind_error_iff, rejectIf_error_iff, reduceCtorEq, and_false, false_or] at h
          obtain ⟨-, -, h | ⟨terminal, -, h⟩⟩ := h
          · exact nomatch projectTerminal_error h
          · cases h
        · cases h
      · cases h
    · cases h
  · intro h
    obtain ⟨version, sessionId, createdAtUnixMs, workingDirectory, harnessVersion, tail, rfl, hversion⟩ := h
    simp only [projectRecords, bne_iff_ne.mpr hversion, rejectIf_true, error_bind]

/-! ## The files a reader accepts -/

section
variable (fromSlice : Bytes → Option Record) (bytes : Bytes)

/-- A file of a session with this id, and what it shows. -/
def ReadsAs (id : String) (r : ShowResult) : Prop :=
  ∃ (s : Session) (t : Option s.Terminal) (rest : Bytes), s.sessionId = id ∧ Decoded fromSlice bytes (s.records t) rest ∧
    r = s.shown (t.map Session.Terminal.outcome) !rest.isEmpty

/-- A file of one to three records, the first a header of another version. -/
def OtherVersion : Prop :=
  ∃ version sessionId createdAtUnixMs workingDirectory harnessVersion tail rest,
    Decoded fromSlice bytes (.header version sessionId createdAtUnixMs workingDirectory harnessVersion :: tail) rest ∧
      tail.length ≤ 2 ∧ version ≠ formatVersion

/-- **The reader accepts exactly what the writer can write**, and reports
everything else as corrupt, unless it is of another version. -/
theorem projectWith_accepts (id : String) :
    (∀ r, projectWith fromSlice bytes id = .ok r ↔ ReadsAs fromSlice bytes id r) ∧
    (projectWith fromSlice bytes id = .error .unsupportedVersion ↔ OtherVersion fromSlice bytes) ∧
    (projectWith fromSlice bytes id = .error .corrupt ↔ (∀ r, ¬ReadsAs fromSlice bytes id r) ∧ ¬OtherVersion fromSlice bytes) := by
  have hok : ∀ r, projectWith fromSlice bytes id = .ok r ↔ ReadsAs fromSlice bytes id r := by
    intro r
    simp only [projectWith, bind_ok_iff, Prod.exists, parseRecords_ok_iff]
    constructor
    · intro h
      obtain ⟨records, _, ⟨rest, hdecoded, -, hlen, rfl⟩, h⟩ := h
      obtain ⟨s, t, hid, rfl, rfl⟩ := (projectRecords_ok_iff hlen).mp h
      exact ⟨s, t, rest, hid, hdecoded, rfl⟩
    · intro h
      obtain ⟨s, t, rest, hid, hdecoded, rfl⟩ := h
      have hlen := s.records_length_le t
      exact ⟨s.records t, _, ⟨rest, hdecoded, List.cons_ne_nil _ _, hlen, rfl⟩,
        (projectRecords_ok_iff hlen).mpr ⟨s, t, hid, rfl, rfl⟩⟩
  have hversion : projectWith fromSlice bytes id = .error .unsupportedVersion ↔ OtherVersion fromSlice bytes := by
    simp only [projectWith, bind_error_iff, Prod.exists, parseRecords_ok_iff, projectRecords_unsupportedVersion_iff]
    constructor
    · intro h
      obtain h | ⟨records, _, ⟨rest, hdecoded, -, hlen, rfl⟩, version, sessionId, createdAt, directory, harness, tail, rfl, hne⟩ := h
      · exact nomatch parseRecords_error h
      · exact ⟨version, sessionId, createdAt, directory, harness, tail, rest, hdecoded, Nat.le_of_succ_le_succ hlen, hne⟩
    · intro h
      obtain ⟨version, sessionId, createdAt, directory, harness, tail, rest, hdecoded, hlen, hne⟩ := h
      exact .inr ⟨_, _, ⟨rest, hdecoded, List.cons_ne_nil _ _, Nat.succ_le_succ hlen, rfl⟩,
        version, sessionId, createdAt, directory, harness, tail, rfl, hne⟩
  refine ⟨hok, hversion, ?_⟩
  simp only [← hok, ← hversion]
  cases h : projectWith fromSlice bytes id with
  | ok r => simp
  | error e => cases e <;> simp

end

end

end AgentHarness.SessionLog
