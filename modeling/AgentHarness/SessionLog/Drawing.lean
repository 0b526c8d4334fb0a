/-
Ids and times that the log and all its writers draw from the same sources.
What is drawn is gone, also where the draw is refused after all; who draws
next draws from what is left.
-/
import AgentHarness.SessionLog.Lifecycle

namespace AgentHarness.SessionLog

open Text Except Interact

/-- Something made of what is drawn. -/
abbrev Drawn (ε α : Type) := ExceptT ε (StateM Sources) α

/-- What has come of it without a draw. -/
def Drawn.of {ε α : Type} (x : Except ε α) : Drawn ε α := fun s => (x, s)

namespace Sources

/-- `next_id`: the id is gone, whether it is valid or not. -/
def drawId {ε : Type} (e : ε) : Drawn ε String := fun s =>
  match s.ids with
  | [] => (.error e, s)
  | id :: ids => (if validId id then .ok id else .error e, { s with ids })

def drawTime {ε : Type} (e : ε) : Drawn ε UInt64 := fun s =>
  match s.times with
  | [] => (.error e, s)
  | time :: times => (.ok time, { s with times })

end Sources

open Sources

/-- `initial_records`. -/
def drawInitial (prompt : String) : Drawn CreateError InitialRecords := do
  let sessionId ← drawId .storeUnavailable
  let operationId ← drawId .storeUnavailable
  let userEntryId ← drawId .storeUnavailable
  .of (rejectIf ([sessionId, operationId, userEntryId].dedup.length != 3) .storeUnavailable)
  let createdAt ← drawTime .storeUnavailable
  let userTimestamp ← drawTime .storeUnavailable
  let sources ← get
  let header := header sessionId createdAt sources.workingDirectory sources.harnessVersion
  let user := userEntry userEntryId userTimestamp operationId prompt
  let header ← .of (okOr (serializeLine header) .storeUnavailable)
  let user ← .of (okOr (serializeLine user) .storeUnavailable)
  .of (rejectIf (header.length + user.length > maxSessionBytes) .storeUnavailable)
  return { sessionId, operationId, userEntryId, header, user }

/-- `terminal_record`. -/
def SessionWriter.drawTerminal (writer : SessionWriter) (build : String → UInt64 → Record) : Drawn AppendError Record := do
  let entryId ← drawId .storeUnavailable
  .of (rejectIf (entryId == writer.sessionId || entryId == writer.userEntryId || entryId == writer.operationId)
    .storeUnavailable)
  let timestamp ← drawTime .storeUnavailable
  return build entryId timestamp

/-- The record of either end. -/
def SessionWriter.drawOutcome (writer : SessionWriter) (outcome : ProjectedTerminal) : Drawn AppendError Record :=
  match outcome with
  | .assistant text => writer.drawTerminal fun entryId timestamp =>
    assistantEntry entryId writer.userEntryId timestamp writer.operationId text
  | .failure failureCode => writer.drawTerminal fun entryId timestamp =>
    failureEntry entryId writer.userEntryId timestamp writer.operationId failureCode

/-! ## The calls that draw -/

/-- `start_file`, from its loop on. -/
def startFileWithDrawn (prompt : String) : (retries : Nat) → Sources → FsProgram (Except CreateError FileWriter × Sources)
  | 0, sources => return (.error .storeUnavailable, sources)
  | retries + 1, sources =>
    match drawInitial prompt sources with
    | (.error e, sources) => return (.error e, sources)
    | (.ok initial, sources) => do
      match ← (createPrivateFile initial.sessionId).run with
      | .error .alreadyExists => startFileWithDrawn prompt retries sources
      | .error _ => return (.error .storeUnavailable, sources)
      | .ok file =>
        match ← (publish file initial).run with
        | .ok _ => return (.ok { writer := initial.writer sources, file }, sources)
        | .error _ =>
          rollbackCreatedFile file initial.sessionId
          return (.error .storeUnavailable, sources)

def startFileDrawn (prompt : String) (sources : Sources) : FsProgram (Except CreateError FileWriter × Sources) := do
  match ← (ensurePrivateDirectory .application).run with
  | .error _ => return (.error .storeUnavailable, sources)
  | .ok _ =>
    match ← (ensurePrivateDirectory .sessions).run with
    | .error _ => return (.error .storeUnavailable, sources)
    | .ok _ => startFileWithDrawn prompt createRetries sources

/-- `append_assistant` or `append_failure`. -/
def FileWriter.appendDrawn (w : FileWriter) (outcome : ProjectedTerminal) (sources : Sources) :
    FsProgram (Except AppendError Unit × Sources) := do
  let (record, sources) := w.writer.drawOutcome outcome sources
  return (← w.finish record, sources)

/-! ## What is drawn -/

/-- What is drawn and what is left, where nothing is told of a draw that fails. -/
def Told {ε α β : Type} (out : α → Sources → β) (x : Except ε β) (y : Except ε α × Sources) : Prop :=
  x = y.1.map fun a => out a y.2

section
variable {ε α β γ : Type} {d : Drawn ε α} {g : α → Drawn ε β} {s s' : Sources} {e : ε} {x : Except ε (α × Sources)}
  {out : β → Sources → γ}

theorem Drawn.bind_ok {a : α} (h : d s = (.ok a, s')) : (d >>= g : Drawn ε β) s = g a s' :=
  congrArg (fun x : Except ε α × Sources => ExceptT.bindCont (m := StateM Sources) g x.1 x.2) h

theorem Drawn.bind_error (h : d s = (.error e, s')) : (d >>= g : Drawn ε β) s = (.error e, s') :=
  congrArg (fun x : Except ε α × Sources => ExceptT.bindCont (m := StateM Sources) g x.1 x.2) h

theorem Told.bind {f : α × Sources → Except ε γ} (hd : Told Prod.mk x (d s))
    (hg : ∀ a s', Told out (f (a, s')) (g a s')) : Told out (x >>= f) ((d >>= g : Drawn ε β) s) := by
  cases hy : d s with
  | mk y s' =>
    rw [hy] at hd
    cases y with
    | error e =>
      rw [hd, Drawn.bind_error hy]
      rfl
    | ok a =>
      rw [hd, Drawn.bind_ok hy]
      exact hg a s'

theorem told_of_bind {y : Except ε α} {f : α → Except ε γ} (hg : ∀ a, Told out (f a) (g a s)) :
    Told out (y >>= f) ((Drawn.of y >>= g : Drawn ε β) s) := by
  cases y with
  | error e => rfl
  | ok a => exact hg a

theorem told_drawId (e : ε) (s : Sources) : Told Prod.mk (okOr s.nextId e) (drawId e s) := by
  unfold Told drawId nextId
  cases s.ids with
  | nil => rfl
  | cons id ids =>
    dsimp only
    split <;> rfl

theorem told_drawTime (e : ε) (s : Sources) : Told Prod.mk (okOr s.now e) (drawTime e s) := by
  unfold Told drawTime now
  cases s.times <;> rfl

end

theorem told_drawInitial (s : Sources) (prompt : String) : Told Prod.mk (initialRecords s prompt) (drawInitial prompt s) := by
  refine (told_drawId _ s).bind fun sessionId s => (told_drawId _ s).bind fun operationId s => ?_
  refine (told_drawId _ s).bind fun userEntryId s => told_of_bind fun _ => ?_
  refine (told_drawTime _ s).bind fun createdAt s => (told_drawTime _ s).bind fun userTimestamp s => ?_
  exact told_of_bind fun header => told_of_bind fun user => told_of_bind fun _ => rfl

theorem drawInitial_ok_iff {prompt : String} {s s' : Sources} {initial : InitialRecords} :
    drawInitial prompt s = (.ok initial, s') ↔ initialRecords s prompt = .ok (initial, s') := by
  have htold := told_drawInitial s prompt
  rw [htold]
  obtain ⟨x, s''⟩ := drawInitial prompt s
  cases x with
  | error e => exact ⟨fun h => (nomatch h), fun h => (nomatch h)⟩
  | ok a =>
    constructor <;>
    · intro h
      cases h
      rfl

namespace SessionWriter

/-- The writer, drawing from what is left. -/
def drawingFrom (writer : SessionWriter) (sources : Sources) : SessionWriter := { writer with sources }

theorem terminalRecord_drawn (writer : SessionWriter) (build : String → UInt64 → Record) (s : Sources) :
    (writer.drawingFrom s).terminalRecord build = (writer.drawTerminal build s).1 := by
  have htold : Told (fun record _ => record) ((writer.drawingFrom s).terminalRecord build) (writer.drawTerminal build s) :=
    (told_drawId _ s).bind fun entryId s => told_of_bind fun _ => (told_drawTime _ s).bind fun timestamp s => rfl
  rw [htold]
  cases (writer.drawTerminal build s).1 <;> rfl

end SessionWriter

/-- The end that the next id and time make. -/
theorem Session.Terminal.drawn {s : Session} (t : s.Terminal) {ids ids' : List String} {times times' : List UInt64}
    {src : Sources} (hids : src.ids = t.entryId :: ids) (htimes : src.times = t.timestamp :: times) :
    ((s.writer ids' times').drawOutcome t.outcome src).1 = .ok t.record := by
  have hfresh := t.fresh
  simp only [List.mem_cons, List.not_mem_nil, or_false, not_or] at hfresh
  cases ho : t.outcome <;> rw [SessionWriter.drawOutcome, ← SessionWriter.terminalRecord_drawn] <;>
    simp [SessionWriter.terminalRecord, SessionWriter.drawingFrom, writer, InitialRecords.writer, initial, Sources.nextId,
      Sources.now, hids, htimes, t.valid, hfresh, record, outcomeRecord, ho]

/-! ## The same calls, with what is left told -/

theorem fst_lift_bind {ε α β σ : Type} {p : FsProgram α} {f : α → FsProgram (Except ε β × σ)} {g : α → FsCall ε β}
    (h : ∀ a, (f a).bind (fun x => .ret x.1) = (g a).run) :
    (p.bind f).bind (fun x => .ret x.1) = (ExceptT.lift p >>= g).run := by
  have hlift : (ExceptT.lift p >>= g).run = p.bind fun a => (g a).run := Program.bind_assoc ..
  rw [hlift, Program.bind_assoc]
  exact congrArg p.bind (funext h)

theorem startFileWithDrawn_fst (prompt : String) (retries : Nat) (s : Sources) :
    (startFileWithDrawn prompt retries s).bind (fun x => .ret x.1) = (startFileWith prompt retries s).run := by
  induction retries generalizing s with
  | zero => rfl
  | succ retries ih =>
    have htold := told_drawInitial s prompt
    rw [startFileWithDrawn, startFileWith]
    cases hy : drawInitial prompt s with
    | mk y s' =>
    rw [hy] at htold
    rw [htold]
    cases y with
    | error e => rfl
    | ok initial =>
    refine fst_lift_bind fun created => ?_
    cases created with
    | error e =>
      cases e with
      | alreadyExists => exact ih s'
      | notFound | other => rfl
    | ok file =>
      refine fst_lift_bind fun published => ?_
      cases published with
      | ok _ => rfl
      | error e => exact fst_lift_bind fun _ => rfl

/-- `start_file` returns the same, whether what is left is told or not. -/
theorem startFileDrawn_fst (prompt : String) (s : Sources) :
    (startFileDrawn prompt s).bind (fun x => .ret x.1) = (startFile s prompt).run := by
  refine fst_lift_bind fun application => ?_
  cases application with
  | error e => rfl
  | ok _ =>
    refine fst_lift_bind fun sessions => ?_
    cases sessions with
    | error e => rfl
    | ok _ => exact startFileWithDrawn_fst prompt createRetries s

/-- An end takes nothing from the sources but ids and times. -/
theorem SessionWriter.terminalRecord_congr (writer : SessionWriter) (build : String → UInt64 → Record) {s s' : Sources}
    (hids : s.ids = s'.ids) (htimes : s.times = s'.times) :
    (writer.drawingFrom s).terminalRecord build = (writer.drawingFrom s').terminalRecord build := by
  simp only [terminalRecord, drawingFrom, nextId, hids]
  cases s'.ids with
  | nil => rfl
  | cons id ids =>
    by_cases hvalid : validId id = true
    · simp only [hvalid, if_true, okOr_some, ok_bind, now, htimes]
      cases s'.times <;> rfl
    · simp only [hvalid]
      rfl

/-- What the writer appends in its turn. -/
theorem FileWriter.append_drawing (w : FileWriter) (outcome : ProjectedTerminal) (s : Sources) :
    (w.drawing s.ids s.times).append outcome = w.finish (w.writer.drawOutcome outcome s).1 := by
  have hrecord : ∀ build, (w.drawing s.ids s.times).writer.terminalRecord build = (w.writer.drawTerminal build s).1 := by
    intro build
    have hsame : (w.writer.drawingFrom { w.writer.sources with ids := s.ids, times := s.times }).terminalRecord build =
        (w.writer.drawingFrom s).terminalRecord build := w.writer.terminalRecord_congr build (by rfl) (by rfl)
    rw [← SessionWriter.terminalRecord_drawn, ← hsame]
    rfl
  cases outcome with
  | assistant text =>
    exact congrArg (w.drawing s.ids s.times).finish (hrecord fun entryId timestamp =>
      assistantEntry entryId w.writer.userEntryId timestamp w.writer.operationId text)
  | failure failureCode =>
    exact congrArg (w.drawing s.ids s.times).finish (hrecord fun entryId timestamp =>
      failureEntry entryId w.writer.userEntryId timestamp w.writer.operationId failureCode)

theorem FileWriter.appendDrawn_fst (w : FileWriter) (outcome : ProjectedTerminal) (s : Sources) :
    (w.appendDrawn outcome s).bind (fun x => .ret x.1) = (w.drawing s.ids s.times).append outcome := by
  have hret : ∀ p : FsProgram (Except AppendError Unit), p.bind .ret = p := by
    intro p
    induction p with
    | ret a => rfl
    | ask r k ih => exact congrArg (Program.ask r) (funext ih)
  rw [FileWriter.append_drawing]
  exact (Program.bind_assoc _ _ _).trans (hret _)

end AgentHarness.SessionLog
