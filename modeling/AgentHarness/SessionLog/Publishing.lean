/-
What a writer does to its session's file, from what it may rely on. `stage`
follows it from the creation of the file to its end: nothing is written
without the lock, and the lock is not given up before the file shows the
session.
-/
import AgentHarness.SessionLog.Reading
import AgentHarness.SessionLog.RoundTrip

namespace AgentHarness.SessionLog

open Text Except Interact

/-! ## Where a writer is -/

/-- What a writer has made of its file: nothing yet; created; locked, with
what was written; given up; removed. -/
inductive Stage where
  | idle
  | created (id : String) (file : Nat)
  | writing (id : String) (file : Nat) (bytes : Bytes)
  | released (id : String) (file : Nat) (bytes : Bytes)
  | removed
  deriving DecidableEq, Repr

/-- The file of the stage, as long as it is at its path. -/
def Stage.place? : Stage → Option (String × Nat)
  | .idle | .removed => none
  | .created id file | .writing id file _ | .released id file _ => some (id, file)

def noteStage (stage : Stage) : Event FsAnswer → Stage
  | ⟨.createNew id _, .ok file⟩ => .created id file
  | ⟨.lock file, .ok _⟩ =>
    match stage with
    | .created id f => if f = file then .writing id f [] else stage
    | _ => stage
  | ⟨.writeAll file b, .ok _⟩ =>
    match stage with
    | .writing id f w => if f = file then .writing id f (w ++ b) else stage
    | _ => stage
  | ⟨.close file, _⟩ =>
    match stage with
    | .writing id f w => if f = file then .released id f w else stage
    | _ => stage
  | ⟨.removeFile _, .ok _⟩ => .removed
  | _ => stage

def stage (h : FsHistory) : Stage := h.foldl noteStage .idle

theorem stage_step {h : FsHistory} {g g' : Stage} {e : Event FsAnswer} (hg : stage h = g) (he : noteStage g e = g') :
    stage (h ++ [e]) = g' := by
  simp [stage] at hg ⊢
  rw [hg, he]

/-! ## The contract -/

/-- What a writer may rely on of its own file: nobody else touches it, and
nothing fails. -/
def writerRely (h : FsHistory) : (r : FsRequest) → FsAnswer r → Prop
  | .symlinkMetadata (.session id), a =>
    ∀ file, (stage h).place? = some (id, file) → ∃ m, a = .ok m ∧ m.IsFile file
  | .setPermissions (.session id) _, a => ∀ file, (stage h).place? = some (id, file) → a = .ok ()
  | .metadata file, a => ∀ id, (stage h).place? = some (id, file) → ∃ m, a = .ok m ∧ m.IsFile file ∧
    ∀ w, stage h = .writing id file w → m.len = w.length
  | .lock _, a | .writeAll _ _, a | .syncAll _, a | .syncData _, a | .syncDirectory _, a => a = .ok ()
  | _, _ => True

/-- The file is created once, locked before it is written, and given up only
when it shows the session. -/
def writerGuar (prompt : String) (h : FsHistory) : FsRequest → Prop
  | .symlinkMetadata _ | .createDirAll _ | .setPermissions (.directory _) _ | .metadata _ | .syncAll _ | .syncData _
  | .syncDirectory _ => True
  | .setPermissions (.session _) mode => isPrivate mode = true
  | .createNew _ mode => stage h = .idle ∧ isPrivate mode = true
  | .lock file => ∃ id, stage h = .created id file
  | .writeAll file _ => ∃ id w, stage h = .writing id file w
  | .close file => ∃ id w, stage h = .writing id file w ∧ Shows id prompt w
  | .removeFile id => ∃ file w, stage h = .released id file w
  | .readDir _ | .openRead _ | .tryLockShared _ | .read _ _ => False

def writerContract (prompt : String) : Contract FsRequest FsAnswer where
  rely := writerRely
  guar := writerGuar prompt

/-! ## Starting -/

section
variable {prompt id : String} {file : Nat} {bytes : Bytes} {h : FsHistory}

/-- A request about a directory. -/
def AboutDirectory : FsRequest → Prop
  | .symlinkMetadata (.directory _) | .createDirAll _ | .setPermissions (.directory _) _ => True
  | _ => False

theorem createMissingDirectory_asks (d : Directory) :
    (createMissingDirectory d).run.Asks AboutDirectory fun _ => True := by
  refine asks_ask_bind trivial fun a => ?_
  rcases a with (_ | _ | _) | m
  · exact asks_ask_bind trivial fun _ => trivial
  all_goals trivial

theorem ensurePrivateDirectory_asks (d : Directory) :
    (ensurePrivateDirectory d).run.Asks AboutDirectory fun _ => True := by
  refine (createMissingDirectory_asks d).bind fun x _ => ?_
  cases x with
  | error e => trivial
  | ok u =>
    refine asks_ask_bind trivial fun _ => asks_exit_bind fun _ => asks_exit_bind fun _ => ?_
    exact asks_ask_bind trivial fun _ => trivial

theorem ensurePrivateDirectory_meets (d : Directory) (hg : stage h = .idle) :
    (ensurePrivateDirectory d).run.Meets (writerContract prompt) (fun h _ => stage h = .idle ∧ True) h := by
  refine (ensurePrivateDirectory_asks d).meets (J := fun h => stage h = .idle) hg ?_ ?_
  · intro h r _ hr
    unfold AboutDirectory at hr
    split at hr <;> trivial
  · intro h r a hg hr _
    unfold AboutDirectory at hr
    split at hr
    · exact stage_step hg rfl
    · exact stage_step hg rfl
    · exact stage_step hg rfl
    · exact hr.elim

theorem identityMatches_own (hp : (stage h).place? = some (id, file)) :
    (identityMatches file id).Meets (writerContract prompt) (fun h' b => b = true ∧ stage h' = stage h) h := by
  refine Program.meets_request_bind.mpr ⟨trivial, fun a ha => ?_⟩
  obtain ⟨m, rfl, hm, -⟩ := ha id hp
  have hg₁ : stage (h ++ [⟨.metadata file, .ok m⟩]) = stage h := stage_step rfl rfl
  refine Program.meets_request_bind.mpr ⟨trivial, fun a ha => ?_⟩
  obtain ⟨path, rfl, hpath⟩ := ha file (by rw [hg₁]; exact hp)
  exact ⟨identityMatches_true hm hpath, stage_step hg₁ rfl⟩

theorem safeCreatedFile_meets (hg : stage h = .created id file) :
    (safeCreatedFile file id).Meets (writerContract prompt) (fun h b => b = true ∧ stage h = .created id file) h := by
  refine Program.meets_request_bind.mpr ⟨(by decide : isPrivate 0o600 = true), fun a ha => ?_⟩
  cases ha file (by rw [hg]; rfl)
  have hg₁ : stage (h ++ [⟨.setPermissions (.session id) 0o600, .ok ()⟩]) = .created id file := stage_step hg rfl
  refine (identityMatches_own (by rw [hg₁]; rfl)).bind ?_
  rintro h₂ _ ⟨rfl, hg₂⟩
  refine Program.meets_request_bind.mpr ⟨trivial, fun a ha => ?_⟩
  obtain ⟨m, rfl, hm, -⟩ := ha id (by rw [hg₂, hg₁]; rfl)
  exact ⟨hm.mode, stage_step (hg₂.trans hg₁) rfl⟩

/-- The file is there, or it could not be created. -/
theorem createPrivateFile_meets (hg : stage h = .idle) :
    (createPrivateFile id).run.Meets (writerContract prompt)
      (fun h x => match x with
        | .ok file => stage h = .created id file
        | .error _ => stage h = .idle) h := by
  refine meets_ask_bind.mpr ⟨⟨hg, by decide⟩, fun a _ => ?_⟩
  cases a with
  | error e => exact stage_step hg rfl
  | ok file =>
    refine meets_lift_bind (safeCreatedFile_meets (stage_step hg rfl)) ?_
    rintro h₁ _ ⟨rfl, hg₁⟩
    exact hg₁

theorem publish_meets {initial : InitialRecords} (hg : stage h = .created id file) :
    (publish file initial).run.Meets (writerContract prompt)
      (fun h x => x = .ok () ∧ stage h = .writing id file (initial.header ++ initial.user)) h := by
  refine meets_ask_bind.mpr ⟨⟨id, hg⟩, fun a ha => ?_⟩
  cases ha
  have hg₁ : stage (h ++ [⟨.lock file, .ok ()⟩]) = .writing id file [] := stage_step hg (if_pos rfl)
  refine meets_ask_bind.mpr ⟨⟨id, _, hg₁⟩, fun a ha => ?_⟩
  cases ha
  have hg₂ := stage_step (e := ⟨.writeAll file initial.header, .ok ()⟩) hg₁ (if_pos rfl)
  refine meets_ask_bind.mpr ⟨⟨id, _, hg₂⟩, fun a ha => ?_⟩
  cases ha
  have hg₃ := stage_step (e := ⟨.writeAll file initial.user, .ok ()⟩) hg₂ (if_pos rfl)
  refine meets_ask_bind.mpr ⟨trivial, fun a ha => ?_⟩
  cases ha
  refine meets_ask_bind.mpr ⟨trivial, fun a ha => ?_⟩
  cases ha
  exact ⟨rfl, stage_step (stage_step hg₃ rfl) rfl⟩

/-- The writer of a session, whose file has the session's first records. -/
structure Started (prompt : String) (w : FileWriter) (h : FsHistory) (s : Session) : Prop where
  prompt : s.prompt = prompt
  writer : ∃ ids times, w.writer = s.writer ids times
  fits : s.LinesFit none
  size : (s.bytes none).length ≤ maxSessionBytes
  stage : stage h = .writing s.sessionId w.file (s.bytes none)

theorem startFileWith_meets (retries : Nat) (src : Sources) (hg : stage h = .idle) :
    (startFileWith prompt retries src).run.Meets (writerContract prompt)
      (fun h x => ∀ w, x = .ok w → ∃ s, Started prompt w h s) h := by
  induction retries generalizing src h with
  | zero => exact fun _ hw => nomatch hw
  | succ retries ih =>
    refine meets_exit_bind.mpr ⟨fun _ _ _ hw => (nomatch hw), ?_⟩
    rintro ⟨initial, src'⟩ hinit
    obtain ⟨s, rfl, ids, times, rfl⟩ := initialRecords_session hinit
    obtain ⟨hfit, hsize, rfl, rfl⟩ := s.initialRecords_sources.mp hinit
    refine meets_lift_bind (createPrivateFile_meets hg) ?_
    rintro h₁ ((_ | _ | _) | file) hg₁
    · exact fun _ hw => nomatch hw
    · exact ih _ hg₁
    · exact fun _ hw => nomatch hw
    refine meets_lift_bind (publish_meets hg₁) ?_
    rintro h₂ _ ⟨rfl, hg₂⟩
    intro w hw
    cases hw
    exact ⟨s, rfl, ⟨ids, times, rfl⟩, hfit, hsize, s.initial_bytes ▸ hg₂⟩

theorem startFile_meets (src : Sources) (hg : stage h = .idle) :
    (startFile src prompt).run.Meets (writerContract prompt)
      (fun h x => ∀ w, x = .ok w → ∃ s, Started prompt w h s) h := by
  refine meets_lift_bind (ensurePrivateDirectory_meets .application hg) fun h₁ _ hg₁ => ?_
  refine meets_exit_bind.mpr ⟨fun _ _ _ hw => (nomatch hw), fun _ _ => ?_⟩
  refine meets_lift_bind (ensurePrivateDirectory_meets .sessions hg₁.1) fun h₂ _ hg₂ => ?_
  exact meets_exit_bind.mpr ⟨fun _ _ _ hw => (nomatch hw), fun _ _ => startFileWith_meets _ _ hg₂.1⟩

/-! ## Ending -/

theorem Session.shows_bytes {s : Session} {t : Option s.Terminal} (hfit : s.LinesFit t)
    (hsize : (s.bytes t).length ≤ maxSessionBytes) : Shows s.sessionId s.prompt (s.bytes t) :=
  ⟨hsize, _, s.project_bytes hfit hsize, rfl⟩

variable {s : Session} {w : FileWriter}

theorem Started.shows (hs : Started prompt w h s) : Shows s.sessionId prompt (s.bytes none) :=
  hs.prompt ▸ s.shows_bytes hs.fits hs.size

theorem Started.sessionId (hs : Started prompt w h s) : w.writer.sessionId = s.sessionId := by
  obtain ⟨ids, times, hw⟩ := hs.writer
  rw [hw]
  rfl

/-- A record is appended whole or not at all. -/
theorem appendTerminal_meets {record : Record} (hid : w.writer.sessionId = id)
    (hg : stage h = .writing id w.file bytes) :
    (w.appendTerminal record).run.Meets (writerContract prompt)
      (fun h _ => stage h = .writing id w.file bytes ∨
        ∃ B, SessionWriter.appendTerminal bytes record = .ok B ∧ stage h = .writing id w.file B) h := by
  subst hid
  refine meets_exit_bind.mpr ⟨fun _ _ => .inl hg, fun line hline => ?_⟩
  refine meets_lift_bind (identityMatches_own (by rw [hg]; rfl)) ?_
  rintro h₁ _ ⟨rfl, hg₁⟩
  rw [hg] at hg₁
  refine meets_ask_bind.mpr ⟨trivial, fun a ha => ?_⟩
  obtain ⟨m, rfl, -, hlen⟩ := ha _ (by rw [hg₁]; rfl)
  have hg₂ := stage_step (e := ⟨.metadata w.file, .ok m⟩) hg₁ rfl
  refine meets_exit_bind.mpr ⟨fun _ he => (nomatch he), fun m' he => ?_⟩
  cases he
  rw [hlen bytes hg₁]
  refine meets_exit_bind.mpr ⟨fun _ _ => .inl hg₂, fun _ hfits => ?_⟩
  have hB : SessionWriter.appendTerminal bytes record = .ok (bytes ++ line) := by
    simp only [SessionWriter.appendTerminal, hline, ok_bind, hfits]
    rfl
  refine meets_ask_bind.mpr ⟨⟨_, _, hg₂⟩, fun a ha => ?_⟩
  cases ha
  have hg₃ := stage_step (e := ⟨.writeAll w.file line, .ok ()⟩) hg₂ (if_pos rfl)
  refine meets_ask_bind.mpr ⟨trivial, fun a ha => ?_⟩
  cases ha
  exact .inr ⟨_, hB, stage_step hg₃ rfl⟩

/-- **An end is appended** with the lock held, and what is given up shows
the session. -/
theorem finish_meets (hs : Started prompt w h s) {record : Except AppendError Record}
    (hrecord : ∀ r B, record = .ok r → SessionWriter.appendTerminal (s.bytes none) r = .ok B →
      Shows s.sessionId prompt B) :
    (w.finish record).Meets (writerContract prompt) (fun _ _ => True) h := by
  have happend : Program.Meets (writerContract prompt)
      (fun h _ => ∃ B, stage h = .writing s.sessionId w.file B ∧ Shows s.sessionId prompt B) h
      (do w.appendTerminal (← exit record) : FsCall AppendError Unit).run := by
    refine meets_exit_bind.mpr ⟨fun _ _ => ⟨_, hs.stage, hs.shows⟩, fun r hr => ?_⟩
    refine (appendTerminal_meets hs.sessionId hs.stage).mono ?_
    rintro h₁ _ (hg | ⟨B, hB, hg⟩)
    · exact ⟨_, hg, hs.shows⟩
    · exact ⟨B, hg, hrecord r B hr hB⟩
  refine happend.bind ?_
  rintro h₁ x ⟨B, hg, hshows⟩
  exact Program.meets_request_bind.mpr ⟨⟨_, _, hg, hshows⟩, fun _ _ => trivial⟩

theorem Started.append_shows (hs : Started prompt w h s) (outcome : ProjectedTerminal) {B : Bytes}
    (hB : Session.append w.writer outcome (s.bytes none) = .ok B) : Shows s.sessionId prompt B := by
  obtain ⟨ids, times, hw⟩ := hs.writer
  rw [hw] at hB
  obtain ⟨t, -, hfit, hsize, rfl⟩ := Session.append_bytes hs.fits hB
  exact hs.prompt ▸ Session.shows_bytes hfit hsize

theorem appendAssistant_meets (hs : Started prompt w h s) (text : String) :
    (w.appendAssistant text).Meets (writerContract prompt) (fun _ _ => True) h := by
  refine finish_meets hs fun r B hr hB => hs.append_shows (.assistant text) ?_
  simp only [Session.append, SessionWriter.appendAssistant, hr, ok_bind, hB]

theorem appendFailure_meets (hs : Started prompt w h s) (code : FailureCode) :
    (w.appendFailure code).Meets (writerContract prompt) (fun _ _ => True) h := by
  refine finish_meets hs fun r B hr hB => hs.append_shows (.failure code) ?_
  simp only [Session.append, SessionWriter.appendFailure, hr, ok_bind, hB]

theorem rollback_meets (hs : Started prompt w h s) :
    w.rollback.run.Meets (writerContract prompt) (fun _ _ => True) h := by
  refine meets_lift_bind (identityMatches_own (by rw [hs.stage, hs.sessionId]; rfl)) ?_
  rintro h₁ _ ⟨rfl, hg₁⟩
  rw [hs.stage] at hg₁
  refine meets_ask_bind.mpr ⟨⟨_, _, hg₁, hs.shows⟩, fun _ _ => ?_⟩
  have hg₂ := stage_step (e := ⟨.close w.file, ()⟩) hg₁ (if_pos rfl)
  refine meets_exit_bind.mpr ⟨fun _ _ => trivial, fun _ _ => ?_⟩
  refine meets_ask_bind.mpr ⟨⟨_, _, hs.sessionId ▸ hg₂⟩, fun _ _ => ?_⟩
  refine meets_exit_bind.mpr ⟨fun _ _ => trivial, fun _ _ => ?_⟩
  exact meets_ask_bind.mpr ⟨trivial, fun _ _ => trivial⟩

end

end AgentHarness.SessionLog
