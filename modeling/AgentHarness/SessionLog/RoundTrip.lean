/-
A session as it is meant, and that its file says it: what the writer writes
is read back, and a file cut off anywhere, with anything but a new line
after the cut, shows the session as far as its lines are whole.
-/
import AgentHarness.SessionLog.Writer

namespace AgentHarness.SessionLog

open Text Except Lines

/-- A session up to the user's message: valid ids that differ, and what they
are the ids of. -/
structure Session where
  sessionId : String
  operationId : String
  userEntryId : String
  createdAtUnixMs : UInt64
  userTimestamp : UInt64
  workingDirectory : Option String
  harnessVersion : String
  prompt : String
  valid : ∀ id ∈ [sessionId, operationId, userEntryId], validId id = true
  distinct : [sessionId, operationId, userEntryId].Nodup

namespace Session

/-- How a session ended, under an id that is none of its other ids. -/
structure Terminal (s : Session) where
  entryId : String
  timestamp : UInt64
  outcome : ProjectedTerminal
  valid : validId entryId = true
  fresh : entryId ∉ [s.sessionId, s.userEntryId, s.operationId]

variable (s : Session)

def headerRecord : Record := header s.sessionId s.createdAtUnixMs s.workingDirectory s.harnessVersion
def userRecord : Record := userEntry s.userEntryId s.userTimestamp s.operationId s.prompt

/-- The record of an end, whatever its id and time. -/
def outcomeRecord (outcome : ProjectedTerminal) (entryId : String) (timestamp : UInt64) : Record :=
  match outcome with
  | .assistant text => assistantEntry entryId s.userEntryId timestamp s.operationId text
  | .failure code => failureEntry entryId s.userEntryId timestamp s.operationId code

variable {s} in
def Terminal.record (t : Terminal s) : Record := s.outcomeRecord t.outcome t.entryId t.timestamp

/-- The session so far, or with its end. -/
def records (t : Option (Terminal s)) : List Record := s.headerRecord :: s.userRecord :: (t.map Terminal.record).toList

/-- What a reader is to be shown of the session. -/
def shown (terminal : Option ProjectedTerminal) (trailingFragment : Bool) : ShowResult where
  projection :=
    { sessionId := s.sessionId, createdAtUnixMs := s.createdAtUnixMs, prompt := s.prompt
      status := match terminal with
        | none => .interrupted
        | some (.assistant _) => .completed
        | some (.failure _) => .failed
      terminal }
  trailingFragment

/-! ## The records say the session -/

theorem projectTerminal_record (t : Option (Terminal s)) :
    projectTerminal (t.map Terminal.record) s.sessionId s.userEntryId s.operationId =
      .ok (t.map Terminal.outcome) := by
  cases t with
  | none => rfl
  | some t =>
    have hfresh := t.fresh
    simp only [List.mem_cons, List.not_mem_nil, or_false, not_or] at hfresh
    obtain ⟨h₁, h₂, h₃⟩ := hfresh
    cases ho : t.outcome with
    | assistant text =>
      simp [projectTerminal, Terminal.record, outcomeRecord, ho, assistantEntry, t.valid, h₁, h₂, h₃]
    | failure code =>
      simp [projectTerminal, Terminal.record, outcomeRecord, ho, failureEntry, t.valid, h₁, h₂, h₃,
        code.diagnostic_length]

theorem projectRecords_records (t : Option (Terminal s)) (trailingFragment : Bool) :
    projectRecords (s.records t) trailingFragment s.sessionId = .ok (s.shown (t.map Terminal.outcome) trailingFragment) := by
  have hperm : [s.sessionId, s.userEntryId, s.operationId].Nodup :=
    (List.Perm.cons _ (List.Perm.swap _ _ _)).nodup_iff.mp s.distinct
  have hdedup : [s.sessionId, s.userEntryId, s.operationId].dedup.length = 3 := by
    rw [List.dedup_eq_self.mpr hperm]
    rfl
  have hid : ∀ id ∈ [s.sessionId, s.operationId, s.userEntryId], validId id = true := s.valid
  simp only [List.mem_cons, List.not_mem_nil, or_false, forall_eq_or_imp, forall_eq] at hid
  have hhead : (t.map Terminal.record).toList.head? = t.map Terminal.record := by cases t <;> rfl
  simp only [projectRecords, records, headerRecord, header, userRecord, userEntry, hid, hdedup, hhead,
    s.projectTerminal_record t, bne_self_eq_false, Bool.not_true, Bool.or_self, Option.isSome_none, rejectIf_false,
    ok_bind]
  cases t with
  | none => rfl
  | some t => cases h : t.outcome <;> simp [shown, SessionStatus.ofTerminal, h]

/-- The header alone says no session. -/
theorem projectRecords_headerRecord (trailingFragment : Bool) :
    projectRecords [s.headerRecord] trailingFragment s.sessionId = .error .corrupt := by
  have hid := s.valid s.sessionId List.mem_cons_self
  simp [projectRecords, headerRecord, header, hid]

/-! ## The lines of the file -/

theorem records_length_le (t : Option (Terminal s)) : (s.records t).length ≤ 3 := by
  cases t <;> simp [records]

/-- The file: a line for each record. -/
def bytes (t : Option (Terminal s)) : Bytes := terminated lf ((s.records t).map Record.toVec)

theorem bytes_none : s.bytes none = s.headerRecord.toVec ++ [lf] ++ (s.userRecord.toVec ++ [lf]) := by
  simp [bytes, records]

theorem bytes_some (t : Terminal s) : s.bytes (some t) = s.bytes none ++ (t.record.toVec ++ [lf]) := by
  simp [bytes, records]

/-- Every line is one the reader and the writer allow. -/
def LinesFit (t : Option (Terminal s)) : Prop := ∀ r ∈ s.records t, r.toVec.length ≤ maxRecordBytes

variable {s} in
/-- **What is read of whole lines and a rest**, of all the records or the
first of them. -/
theorem project_take {t : Option (Terminal s)} (hfit : s.LinesFit t) {k : Nat} {rest : Bytes} (hrest : lf ∉ rest)
    (hk : 0 < k) (hsize : (terminated lf (((s.records t).map Record.toVec).take k) ++ rest).length ≤ maxSessionBytes) :
    project (terminated lf (((s.records t).map Record.toVec).take k) ++ rest) s.sessionId =
      projectRecords ((s.records t).take k) (!rest.isEmpty) s.sessionId := by
  rw [← List.map_take] at hsize ⊢
  have hne : (s.records t).take k ≠ [] := by
    obtain ⟨k, rfl⟩ := Nat.exists_eq_add_of_lt hk
    simp [records]
  have hlen : ((s.records t).take k).length ≤ 3 := (List.length_take_le' k _).trans (s.records_length_le t)
  rw [project, projectWith, parseRecords_written hne hlen (fun r hr => hfit r (List.mem_of_mem_take hr)) hrest hsize, ok_bind]

/-- The whole file shows the whole session. -/
theorem project_bytes {t : Option (Terminal s)} (hfit : s.LinesFit t) (hsize : (s.bytes t).length ≤ maxSessionBytes) :
    project (s.bytes t) s.sessionId = .ok (s.shown (t.map Terminal.outcome) false) := by
  have hlen : ((s.records t).map Record.toVec).length ≤ 3 := by
    rw [List.length_map]
    exact s.records_length_le t
  have h := project_take hfit (List.not_mem_nil (a := lf)) (Nat.succ_pos 2)
  rw [List.take_of_length_le hlen, List.append_nil] at h
  rw [bytes, h hsize, List.take_of_length_le (s.records_length_le t), List.isEmpty_nil, projectRecords_records]
  rfl

variable {s} in
/-- A file cut off, with anything but a new line after the cut. -/
theorem project_cut {t : Terminal s} (hfit : s.LinesFit (some t)) {n : Nat} (hn : n ≤ (s.bytes (some t)).length)
    {F : Bytes} (hF : lf ∉ F) (hsize : ((s.bytes (some t)).take n ++ F).length ≤ maxSessionBytes) :
    project ((s.bytes (some t)).take n ++ F) s.sessionId =
      if n < (s.bytes none).length then .error .corrupt
      else .ok (s.shown (if n = (s.bytes (some t)).length then some t.outcome else none)
        !(afterLast lf ((s.bytes (some t)).take n ++ F)).isEmpty) := by
  have hlines : ∀ line ∈ (s.records (some t)).map Record.toVec, lf ∉ line := by
    intro line h
    obtain ⟨r, -, rfl⟩ := List.mem_map.mp h
    exact r.lf_not_mem_toVec
  obtain ⟨k, rest, hk, htake, hrest, hle, hlt⟩ := take_terminated hlines hn
  have hrest' : lf ∉ rest ++ F := fun h => (List.mem_append.mp h).elim hrest hF
  have hcut : (s.bytes (some t)).take n ++ F =
      terminated lf (((s.records (some t)).map Record.toVec).take k) ++ (rest ++ F) := by
    rw [bytes, htake, List.append_assoc]
  rw [hcut, afterLast_terminated _ hrest']
  rw [hcut] at hsize
  have hnone : (s.bytes none).length = (terminated lf (((s.records (some t)).map Record.toVec).take 2)).length := rfl
  have hsome : (s.bytes (some t)).length = (terminated lf (((s.records (some t)).map Record.toVec).take 3)).length := rfl
  have hgrow : (s.bytes (some t)).length = (s.bytes none).length + (t.record.toVec.length + 1) := by
    simp [bytes_some]
  have hlen : ((s.records (some t)).map Record.toVec).length = 3 := rfl
  rw [hlen] at hk hlt
  obtain rfl | rfl | rfl | rfl : k = 0 ∨ k = 1 ∨ k = 2 ∨ k = 3 := by omega
  · -- the cut is in the header's line
    have hheader : (terminated lf (((s.records (some t)).map Record.toVec).take 1)).length ≤ (s.bytes none).length := by
      simp [bytes, records]
    have hshort : n < (s.bytes none).length := Nat.lt_of_lt_of_le (hlt (by decide)) hheader
    rw [if_pos hshort, List.take_zero, terminated_nil, List.nil_append, project, projectWith, parseRecords_noLine hrest', error_bind]
  · -- the cut is in the user's line
    have hshort : n < (s.bytes none).length := hnone ▸ hlt (by decide)
    rw [if_pos hshort, project_take hfit hrest' (by decide) hsize]
    exact s.projectRecords_headerRecord _
  · -- the cut is in the terminal line
    have hlong : ¬n < (s.bytes none).length := by omega
    have hshort : n < (s.bytes (some t)).length := hlt (by decide)
    rw [if_neg hlong, if_neg (Nat.ne_of_lt hshort), project_take hfit hrest' (by decide) hsize]
    exact s.projectRecords_records none _
  · -- nothing is cut off
    have hlong : ¬n < (s.bytes none).length := by omega
    have hwhole : n = (s.bytes (some t)).length := by omega
    rw [if_neg hlong, if_pos hwhole, project_take hfit hrest' (by decide) hsize]
    exact s.projectRecords_records (some t) _

/-! ## The writer writes sessions -/

/-- Sources the session's ids and times are drawn from first. -/
def sources (ids : List String) (times : List UInt64) : Sources where
  ids := s.sessionId :: s.operationId :: s.userEntryId :: ids
  times := s.createdAtUnixMs :: s.userTimestamp :: times
  workingDirectory := s.workingDirectory
  harnessVersion := s.harnessVersion

def initial : InitialRecords where
  sessionId := s.sessionId
  operationId := s.operationId
  userEntryId := s.userEntryId
  header := s.headerRecord.toVec ++ [lf]
  user := s.userRecord.toVec ++ [lf]

/-- The writer of the session, with what is left of its sources. -/
def writer (ids : List String) (times : List UInt64) : SessionWriter :=
  s.initial.writer { ids, times, workingDirectory := s.workingDirectory, harnessVersion := s.harnessVersion }

theorem initial_bytes : s.initial.header ++ s.initial.user = s.bytes none := s.bytes_none.symm

/-- **The first records are written** exactly when their sizes allow. -/
theorem initialRecords_sources {ids : List String} {times : List UInt64} {initial : InitialRecords} {src : Sources} :
    initialRecords (s.sources ids times) s.prompt = .ok (initial, src) ↔
      s.LinesFit none ∧ (s.bytes none).length ≤ maxSessionBytes ∧ initial = s.initial ∧
        src = { ids, times, workingDirectory := s.workingDirectory, harnessVersion := s.harnessVersion } := by
  have hid : ∀ id ∈ [s.sessionId, s.operationId, s.userEntryId], validId id = true := s.valid
  simp only [List.mem_cons, List.not_mem_nil, or_false, forall_eq_or_imp, forall_eq] at hid
  have hdedup : [s.sessionId, s.operationId, s.userEntryId].dedup.length = 3 := by
    rw [List.dedup_eq_self.mpr s.distinct]
    rfl
  have hlines : s.LinesFit none ↔ s.headerRecord.toVec.length ≤ maxRecordBytes ∧
      s.userRecord.toVec.length ≤ maxRecordBytes := by
    simp [LinesFit, records]
  rw [s.bytes_none, hlines]
  simp only [initialRecords, sources, Sources.nextId, Sources.now, hid, hdedup, if_true, okOr_some, ok_bind,
    bne_self_eq_false, rejectIf_false, bind_ok_iff, okOr_ok_iff, serializeLine_eq_some, rejectIf_ok_iff,
    decide_eq_false_iff_not, gt_iff_lt, Nat.not_lt, pure_ok_iff, Prod.mk.injEq]
  constructor
  · intro h
    obtain ⟨_, ⟨hh, rfl⟩, _, ⟨hu, rfl⟩, -, hsize, rfl, rfl⟩ := h
    exact ⟨⟨hh, hu⟩, List.length_append ▸ hsize, rfl, rfl⟩
  · intro h
    obtain ⟨⟨hh, hu⟩, hsize, rfl, rfl⟩ := h
    exact ⟨_, ⟨hh, rfl⟩, _, ⟨hu, rfl⟩, ⟨⟩, List.length_append ▸ hsize, rfl, rfl⟩

end Session

/-- **Whatever first records are written are those of a session.** -/
theorem initialRecords_session {src src' : Sources} {prompt : String} {initial : InitialRecords}
    (h : initialRecords src prompt = .ok (initial, src')) :
    ∃ s : Session, s.prompt = prompt ∧ ∃ ids times, src = s.sources ids times := by
  simp only [initialRecords, bind_ok_iff, okOr_ok_iff, Prod.exists, Sources.nextId_eq_some, Sources.now_eq_some,
    rejectIf_ok_iff, bne_eq_false_iff_eq] at h
  obtain ⟨sessionId, src₁, ⟨h₁, hv₁, he₁⟩, operationId, src₂, ⟨h₂, hv₂, he₂⟩, userEntryId, src₃, ⟨h₃, hv₃, he₃⟩, -,
    hdistinct, createdAt, src₄, ⟨h₄, he₄⟩, userTimestamp, src₅, ⟨h₅, he₅⟩, -⟩ := h
  have hnodup : [sessionId, operationId, userEntryId].Nodup := by
    have hsub := List.dedup_sublist [sessionId, operationId, userEntryId]
    rw [← hsub.eq_of_length hdistinct]
    exact List.nodup_dedup _
  have hvalid : ∀ id ∈ [sessionId, operationId, userEntryId], validId id = true := by simp [hv₁, hv₂, hv₃]
  let s : Session :=
    { sessionId, operationId, userEntryId, createdAtUnixMs := createdAt, userTimestamp
      workingDirectory := src.workingDirectory, harnessVersion := src.harnessVersion, prompt
      valid := hvalid, distinct := hnodup }
  refine ⟨s, rfl, src₃.ids, src₅.times, ?_⟩
  · have ht₁ : src₁.times = src.times := by rw [he₁]
    have ht₂ : src₂.times = src₁.times := by rw [he₂]
    have ht₃ : src₃.times = src₂.times := by rw [he₃]
    have ht₄ : src₄.times = userTimestamp :: src₅.times := h₅
    have hids : src.ids = sessionId :: operationId :: userEntryId :: src₃.ids := by rw [h₁, h₂, h₃]
    have htimes : src.times = createdAt :: userTimestamp :: src₅.times := by rw [← ht₁, ← ht₂, ← ht₃, h₄, ht₄]
    obtain ⟨i, t, d, v⟩ := src
    cases hids
    cases htimes
    rfl

namespace Session

variable (s : Session)

/-- Either way to append an end. -/
def append (writer : SessionWriter) (outcome : ProjectedTerminal) (file : Bytes) : Except AppendError Bytes :=
  match outcome with
  | .assistant text => writer.appendAssistant text file
  | .failure code => writer.appendFailure code file

variable {s} in
/-- **Whatever is appended is the line of an end of the session.** -/
theorem append_ok {ids : List String} {times : List UInt64} {outcome : ProjectedTerminal} {file B : Bytes}
    (h : append (s.writer ids times) outcome file = .ok B) :
    ∃ t : Terminal s, t.outcome = outcome ∧ t.record.toVec.length ≤ maxRecordBytes ∧ B.length ≤ maxSessionBytes ∧
      B = file ++ (t.record.toVec ++ [lf]) := by
  obtain ⟨entryId, timestamp, hvalid, hfresh, h⟩ : ∃ entryId timestamp, validId entryId = true ∧
      entryId ∉ [s.sessionId, s.userEntryId, s.operationId] ∧
      SessionWriter.appendTerminal file (s.outcomeRecord outcome entryId timestamp) = .ok B := by
    cases outcome <;>
      simp only [append, SessionWriter.appendAssistant, SessionWriter.assistantRecord, SessionWriter.appendFailure,
        SessionWriter.failureRecord, SessionWriter.terminalRecord, bind_ok_iff, okOr_ok_iff, Prod.exists,
        Sources.nextId_eq_some, rejectIf_ok_iff, Bool.or_eq_false_iff, beq_eq_false_iff_ne, pure_ok_iff] at h
    all_goals
      obtain ⟨r, ⟨entryId, src, ⟨-, hv, -⟩, -, ⟨⟨h₁, h₂⟩, h₃⟩, timestamp, -, -, rfl⟩, h⟩ := h
      refine ⟨entryId, timestamp, hv, ?_, h⟩
      simp only [List.mem_cons, List.not_mem_nil, or_false, not_or]
      exact ⟨h₁, h₂, h₃⟩
  simp only [SessionWriter.appendTerminal, bind_ok_iff, okOr_ok_iff, serializeLine_eq_some, rejectIf_ok_iff,
    decide_eq_false_iff_not, gt_iff_lt, Nat.not_lt, pure_ok_iff] at h
  obtain ⟨line, ⟨hmax, rfl⟩, -, hsize, rfl⟩ := h
  exact ⟨{ entryId, timestamp, outcome, valid := hvalid, fresh := hfresh }, rfl, hmax,
    List.length_append.symm ▸ hsize, rfl⟩

variable {s} in
/-- A file the writer has appended an end to is the file of the session with
that end. -/
theorem append_bytes {ids : List String} {times : List UInt64} {outcome : ProjectedTerminal} {B : Bytes}
    (hfit : s.LinesFit none) (h : append (s.writer ids times) outcome (s.bytes none) = .ok B) :
    ∃ t : Terminal s, t.outcome = outcome ∧ s.LinesFit (some t) ∧ B.length ≤ maxSessionBytes ∧ B = s.bytes (some t) := by
  obtain ⟨t, ho, hmax, hsize, hB⟩ := append_ok h
  refine ⟨t, ho, ?_, hsize, hB.trans (s.bytes_some t).symm⟩
  intro r hr
  simp only [LinesFit, records, Option.map_none, Option.toList_none, List.mem_cons, List.not_mem_nil, or_false,
    forall_eq_or_imp, forall_eq] at hfit
  simp only [records, Option.map_some, Option.toList_some, List.mem_cons, List.not_mem_nil, or_false] at hr
  rcases hr with rfl | rfl | rfl
  · exact hfit.1
  · exact hfit.2
  · exact hmax

end Session

/-! ## A session and its end -/

def sampleSession : Session where
  sessionId := "00000000000000000000000000000001"
  operationId := "00000000000000000000000000000002"
  userEntryId := "00000000000000000000000000000003"
  createdAtUnixMs := 1700000000000
  userTimestamp := 1700000000001
  workingDirectory := some "/work"
  harnessVersion := "0.1.0"
  prompt := "say \"é\"\n"
  valid := by decide +kernel
  distinct := by decide

def sampleTerminal : Session.Terminal sampleSession where
  entryId := "00000000000000000000000000000004"
  timestamp := 1700000000002
  outcome := .assistant "é\n"
  valid := by decide +kernel
  fresh := by decide

/-- The same session, ended by a failure. -/
def sampleFailure : Session.Terminal sampleSession := { sampleTerminal with outcome := .failure .rateLimited }

/-- What is left to be drawn after the session's first records. -/
def sampleSources : Sources where
  ids := [sampleTerminal.entryId]
  times := [sampleTerminal.timestamp]
  workingDirectory := sampleSession.workingDirectory
  harnessVersion := sampleSession.harnessVersion

theorem sample_initial :
    initialRecords (sampleSession.sources sampleSources.ids sampleSources.times) sampleSession.prompt =
      .ok (sampleSession.initial, sampleSources) :=
  sampleSession.initialRecords_sources.mpr ⟨by unfold Session.LinesFit; decide +kernel, by decide +kernel, rfl, rfl⟩

theorem sample_append : (sampleSession.initial.writer sampleSources).appendAssistant "é\n"
    (sampleSession.initial.header ++ sampleSession.initial.user) = .ok (sampleSession.bytes (some sampleTerminal)) := by
  decide +kernel

theorem sample_appendFailure : (sampleSession.initial.writer sampleSources).appendFailure .rateLimited
    (sampleSession.initial.header ++ sampleSession.initial.user) = .ok (sampleSession.bytes (some sampleFailure)) := by
  decide +kernel

/-! ## What a reader is shown of a file -/

section
variable {s : Session} {ids : List String} {times : List UInt64} {initial : InitialRecords} {src : Sources}

/-- **A session is read as it was written**: without an end, with an answer,
and with any failure. -/
theorem project_written (hinit : initialRecords (s.sources ids times) s.prompt = .ok (initial, src)) :
    project (initial.header ++ initial.user) s.sessionId = .ok (s.shown none false) ∧
    (∀ answer B, (initial.writer src).appendAssistant answer (initial.header ++ initial.user) = .ok B →
      project B s.sessionId = .ok (s.shown (some (.assistant answer)) false)) ∧
    ∀ code B, (initial.writer src).appendFailure code (initial.header ++ initial.user) = .ok B →
      project B s.sessionId = .ok (s.shown (some (.failure code)) false) := by
  obtain ⟨hfit, hsize, rfl, rfl⟩ := s.initialRecords_sources.mp hinit
  rw [s.initial_bytes]
  have happend : ∀ outcome B, Session.append (s.writer ids times) outcome (s.bytes none) = .ok B →
      project B s.sessionId = .ok (s.shown (some outcome) false) := by
    intro outcome B h
    obtain ⟨t, rfl, hfit', hsize', rfl⟩ := Session.append_bytes hfit h
    exact s.project_bytes hfit' hsize'
  exact ⟨s.project_bytes hfit hsize, fun answer => happend (.assistant answer), fun code => happend (.failure code)⟩

theorem project_written_sample :
    project (sampleSession.initial.header ++ sampleSession.initial.user) sampleSession.sessionId =
      .ok (sampleSession.shown none false) ∧
    project (sampleSession.bytes (some sampleTerminal)) sampleSession.sessionId =
      .ok (sampleSession.shown (some (.assistant "é\n")) false) ∧
    project (sampleSession.bytes (some sampleFailure)) sampleSession.sessionId =
      .ok (sampleSession.shown (some (.failure .rateLimited)) false) := by
  obtain ⟨hunended, hanswered, hfailed⟩ := project_written sample_initial
  exact ⟨hunended, hanswered _ _ sample_append, hfailed _ _ sample_appendFailure⟩

/-- **A torn write shows nothing wrong**: cut off anywhere, and with anything
but a new line after the cut, the file is corrupt until both first lines are
whole, and then shows the session, with its end when nothing is cut off. -/
theorem project_torn (hinit : initialRecords (s.sources ids times) s.prompt = .ok (initial, src))
    {outcome : ProjectedTerminal} {B : Bytes}
    (hB : Session.append (initial.writer src) outcome (initial.header ++ initial.user) = .ok B) {n : Nat}
    (hn : n ≤ B.length) {F : Bytes} (hF : lf ∉ F) (hsize : (B.take n ++ F).length ≤ maxSessionBytes) :
    project (B.take n ++ F) s.sessionId =
      if n < initial.header.length + initial.user.length then .error .corrupt
      else .ok (s.shown (if n = B.length then some outcome else none) !(afterLast lf (B.take n ++ F)).isEmpty) := by
  obtain ⟨hfit, -, rfl, rfl⟩ := s.initialRecords_sources.mp hinit
  rw [s.initial_bytes] at hB
  obtain ⟨t, rfl, hfit', -, rfl⟩ := Session.append_bytes hfit hB
  rw [← List.length_append, s.initial_bytes]
  exact Session.project_cut hfit' hn hF hsize

/-- The end is whole but for its new line, and something else comes after it. -/
theorem project_torn_sample :
    project ((sampleSession.bytes (some sampleTerminal)).dropLast ++ utf8 "\x7b") sampleSession.sessionId =
      .ok (sampleSession.shown none true) := by
  have happend : Session.append _ (.assistant "é\n") _ = .ok _ := sample_append
  have hcut : ¬(sampleSession.bytes (some sampleTerminal)).length - 1 <
      sampleSession.initial.header.length + sampleSession.initial.user.length := by decide +kernel
  have hne : (sampleSession.bytes (some sampleTerminal)).length - 1 ≠
      (sampleSession.bytes (some sampleTerminal)).length := by decide +kernel
  have hlast : afterLast lf ((sampleSession.bytes (some sampleTerminal)).take
      ((sampleSession.bytes (some sampleTerminal)).length - 1) ++ utf8 "\x7b") ≠ [] := by decide +kernel
  rw [List.dropLast_eq_take, project_torn sample_initial happend (Nat.sub_le _ 1) (by decide +kernel)
    (by decide +kernel), if_neg hcut, if_neg hne, List.isEmpty_eq_false_iff.mpr hlast]
  rfl

end

end AgentHarness.SessionLog
