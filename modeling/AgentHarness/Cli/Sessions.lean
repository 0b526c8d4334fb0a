/-
The command line as a system: any number of processes, each with its own
arguments, on one store of sessions. Their requests come in any order, each
operation on the store is carried out whole, and a process may be killed
before any of its requests, but not within one. What the store has of a
session is told by the process that started it alone (`Tracked`), so a session
is shown as its question ended, whoever asks for it and whatever else is run.
-/
import AgentHarness.Cli.Exit
import AgentHarness.Lib.Processes
import AgentHarness.SessionLog.Lifecycle

namespace AgentHarness.Cli

open Text Interact Model Auth
open SessionLog (Store Operation Step Life life life_snoc Kept Goes Session ProjectedTerminal ShowError ShowResult
  SessionSummary showSession listLimits sampleSession sampleSources sampleEmpty)

/-! ## What is done to the store -/

/-- The operation that an exchange is, of a process that writes this session if it writes any. -/
def operation (sessionId : String) : Event Answer → Option Operation
  | ⟨.ask (.start prompt), result⟩ => some (.started prompt result)
  | ⟨.ask (.appendAssistant text), result⟩ => some (.appended sessionId (.assistant text) result)
  | ⟨.ask (.appendFailure failure), result⟩ => some (.appended sessionId (.failure failure) result)
  | ⟨.ask .rollback, result⟩ => some (.rolledBack sessionId result)
  | ⟨.list, result⟩ => some (.listed listLimits result)
  | ⟨.inspect id, result⟩ => some (.shown id result)
  | _ => none

section
variable {ι : Type}

/-- The session that a process writes. -/
def written (s : Store ι) (i : ι) : Option String := (s.writers i).map fun w => w.writer.sessionId

variable [DecidableEq ι]

section
variable (S : SerdeJson) (fromStr : String → Option Json) (limits : Sse.Limits) (platform : Platform)

/-- What a request does. An operation on the store is carried out whole, with
no other in between. The model answers as in production; of the other actions
nothing is said but that they leave the store. -/
def Performs (i : ι) (s : Store ι) (r : Request) (a : Answer r) (t : Store ι) : Prop :=
  (∀ prompt answer, (⟨r, a⟩ : Event Answer) = ⟨.ask (.askOpenAiCodex prompt), answer⟩ →
    Model.Answers S fromStr limits platform prompt answer) ∧
  match operation ((written s i).getD "") ⟨r, a⟩ with
  | some op => Step i s op t
  | none => t = s

end

/-- A process that is killed between its requests closes what it has open. -/
def Kills (i : ι) (s t : Store ι) : Prop := (∃ id, Step i s (.dropped id) t) ∨ (s.writers i = none ∧ t = s)

/-! ## The session of a process -/

/-- What an exchange makes of the session of its process. -/
def taken : Option (String × Life) → Event Answer → Option (String × Life)
  | none, ⟨.ask (.start prompt), .ok id⟩ => some (id, .live prompt)
  | none, _ => none
  | some (id, l), e => some (id, ((operation id e).bind (l.next id)).getD l)

def sessionOf (h : AppHistory) : Option (String × Life) := h.foldl taken none

/-- What a kill makes of it. -/
def cut : Option (String × Life) → Option (String × Life)
  | some (id, .live prompt) => some (id, .ended prompt none)
  | session => session

def happened (i : ι) (session : Option (String × Life)) : Happening ι Answer → Option (String × Life)
  | .exchanged j e => if j = i then taken session e else session
  | .killed j => if j = i then cut session else session

/-- The session that a process has started, and what has become of it, by
what has happened to that process. -/
def session (i : ι) (tr : List (Happening ι Answer)) : Option (String × Life) := tr.foldl (happened i) none

@[simp] theorem sessionOf_snoc (h : AppHistory) (e : Event Answer) : sessionOf (h ++ [e]) = taken (sessionOf h) e := by
  simp [sessionOf]

@[simp] theorem session_snoc (i : ι) (tr : List (Happening ι Answer)) (x : Happening ι Answer) :
    session i (tr ++ [x]) = happened i (session i tr) x := by
  simp [session]

/-- The session of a process that is not killed, by what it has exchanged. -/
theorem session_alive {i : ι} {tr : List (Happening ι Answer)} (h : .killed i ∉ tr) :
    session i tr = sessionOf (Processes.own i tr) := by
  induction tr using List.reverseRecOn with
  | nil => rfl
  | append_singleton tr x ih =>
    rw [List.mem_append, not_or] at h
    rw [session_snoc, ih h.1, Processes.own_append]
    cases x with
    | exchanged j e =>
      by_cases hij : j = i
      · subst hij
        simp [happened]
      · simp [happened, hij, Processes.own_exchanged_other hij]
    | killed j =>
      have hij : j ≠ i := by
        intro hij
        exact h.2 (by simp [hij])
      simp [happened, hij]

end

/-! ## How a command uses the store -/

/-- A session is started, for what the line asks, listed or shown by a process
that has none, and ended by the one that started it. No session is rolled
back, as the prompt that it is started with is one that the model does not
refuse. -/
def protocol (command : Command) : Contract Request Answer where
  rely := fun _ r a =>
    match r, a with
    | .ask (.askOpenAiCodex prompt), answer => validatePrompt prompt = .ok () → answer ≠ .error .invalidPrompt
    | _, _ => True
  guar := fun h r =>
    match r with
    | .ask (.start prompt) => sessionOf h = none ∧ command = .askOpenAiCodex prompt
    | .list | .inspect _ => sessionOf h = none
    | .ask (.appendAssistant _) | .ask (.appendFailure _) => ∃ id prompt, sessionOf h = some (id, .live prompt)
    | .ask .rollback => False
    | _ => True

theorem protocol_unmuted {command : Command} : Unmuted (protocol command) := fun _ _ => trivial

/-- What a question that has been dealt with leaves: nothing, or a session
that it has announced, and that has its answer if it exits with zero. -/
inductive Leaves (prompt : String) (h : AppHistory) (c : Completion) : Prop
  | nothing : sessionOf h = none → c.status = failure → Leaves prompt h c
  | session {id : String} {terminal : Option ProjectedTerminal} {announced : Except ErrorKind Unit} :
      sessionOf h = some (id, .ended prompt terminal) → ⟨.ask (.stderr ("Session: " ++ id ++ "\n")), announced⟩ ∈ h →
      (c.status = success ↔ ∃ text, terminal = some (.assistant text)) →
      (∀ text, terminal = some (.assistant text) → (∃ a, ⟨.ask (.stdout (renderModelText text)), a⟩ ∈ h) ∧
        ∀ out a, ⟨.ask (.stdout out), a⟩ ∈ h → out = renderModelText text) → Leaves prompt h c

theorem Wrote.sessionOf {h h' : AppHistory} (hw : Wrote h h') : sessionOf h' = sessionOf h := by
  obtain ⟨es, rfl, hes⟩ := hw
  induction es using List.reverseRecOn with
  | nil => rw [List.append_nil]
  | append_singleton es e ih =>
    rw [List.all_append, Bool.and_eq_true] at hes
    rw [← List.append_assoc, sessionOf_snoc, ih hes.1]
    obtain ⟨r, a⟩ := e
    have hlast := hes.2
    cases r with
    | ask r =>
      cases r with
      | stderr text => cases Cli.sessionOf h <;> rfl
      | _ => exact absurd hlast (by simp [isStderr])
    | _ => exact absurd hlast (by simp [isStderr])

/-- What is no line on standard error was there before the lines. -/
theorem Wrote.mem {h h' : AppHistory} (hw : Wrote h h') {e : Event Answer} (he : e ∈ h') (hne : isStderr e = false) :
    e ∈ h := by
  obtain ⟨es, rfl, hes⟩ := hw
  rcases List.mem_append.mp he with he | he
  · exact he
  · rw [List.all_eq_true.mp hes e he] at hne
    cases hne

theorem Wrote.subset {h h' : AppHistory} (hw : Wrote h h') {e : Event Answer} (he : e ∈ h) : e ∈ h' := by
  obtain ⟨es, rfl, -⟩ := hw
  exact List.mem_append_left _ he

section
variable {prompt sessionId text : String}

/-- The line with the session's id is the last that is written. -/
theorem sessionLine_leaves {h h' : AppHistory} {status : ExitCode} {stdout result : Except ErrorKind Unit}
    (terminal : Option ProjectedTerminal) (hw : Wrote h h')
    (hsession : sessionOf h = some (sessionId, .ended prompt terminal))
    (hstatus : status = success ↔ ∃ text, terminal = some (.assistant text))
    (hprinted : ∀ text, terminal = some (.assistant text) → (∃ a, ⟨.ask (.stdout (renderModelText text)), a⟩ ∈ h) ∧
      ∀ out a, ⟨.ask (.stdout out), a⟩ ∈ h → out = renderModelText text) :
    (asking (errorLine result ("Session: " ++ sessionId) >>= fun stderr =>
      pure { status, stdout, stderr })).Meets (protocol (.askOpenAiCodex prompt)) (Leaves prompt) h' := by
  refine ⟨trivial, fun a _ => ?_⟩
  have hw : Wrote h (h' ++ [⟨.ask (.stderr ("Session: " ++ sessionId ++ "\n")), a⟩]) := hw.snoc _ a
  refine .session (hw.sessionOf.trans hsession) List.mem_concat_self hstatus fun text htext => ?_
  obtain ⟨⟨b, hmem⟩, hall⟩ := hprinted text htext
  exact ⟨⟨b, hw.subset hmem⟩, fun out b hout => hall out b (hw.mem hout rfl)⟩

theorem answered_leaves : (asking (answered sessionId text)).Meets (protocol (.askOpenAiCodex prompt)) (Leaves prompt)
    [⟨.ask (.start prompt), .ok sessionId⟩, ⟨.ask (.askOpenAiCodex prompt), .ok text⟩] := by
  refine Program.meets_lift_request_bind.mpr ⟨⟨_, _, rfl⟩, fun append _ => ?_⟩
  refine Program.meets_lift_request_bind.mpr ⟨trivial, fun stdout _ => ?_⟩
  refine Program.meets_lift_bind (outputErrorLine_lined protocol_unmuted ⟨rfl, .refl _⟩) fun h stderr hl => ?_
  refine Program.meets_lift_bind (appendErrorLine_lined protocol_unmuted hl) fun h stderr hl => ?_
  cases append with
  | ok _ =>
    refine sessionLine_leaves (some (.assistant text)) hl.2 ?_ ⟨fun _ => ⟨text, rfl⟩, fun _ => rfl⟩ ?_
    · simp [sessionOf, taken, operation, Life.next]
    · intro text' htext
      cases htext
      refine ⟨⟨stdout, by simp⟩, fun out a hmem => ?_⟩
      simp only [List.mem_append, List.mem_cons, List.not_mem_nil, or_false] at hmem
      rcases hmem with ((hmem | hmem) | hmem) | hmem <;> cases hmem
      rfl
  | error _ =>
    refine sessionLine_leaves none hl.2 ?_ ⟨fun hs => absurd hs failure_ne, by simp⟩ (by simp)
    simp [sessionOf, taken, operation, Life.next]

theorem notAnswered_leaves {error : ModelError} {hne : error ≠ .invalidPrompt} :
    (asking (notAnswered sessionId error hne)).Meets (protocol (.askOpenAiCodex prompt)) (Leaves prompt)
      [⟨.ask (.start prompt), .ok sessionId⟩, ⟨.ask (.askOpenAiCodex prompt), .error error⟩] := by
  refine Program.meets_lift_request_bind.mpr ⟨⟨_, _, rfl⟩, fun append _ => ?_⟩
  refine Program.meets_lift_request_bind.mpr ⟨trivial, fun stderr _ => ?_⟩
  refine Program.meets_lift_bind (appendErrorLine_lined protocol_unmuted ⟨rfl, (Wrote.refl _).snoc _ stderr⟩)
    fun h stderr hl => ?_
  cases append with
  | ok _ =>
    refine sessionLine_leaves (some (.failure (modelFailureCode error hne))) hl.2 ?_
      ⟨fun hs => absurd hs failure_ne, by simp⟩ (by simp)
    simp [sessionOf, taken, operation, Life.next]
  | error _ =>
    refine sessionLine_leaves none hl.2 ?_ ⟨fun hs => absurd hs failure_ne, by simp⟩ (by simp)
    simp [sessionOf, taken, operation, Life.next]

theorem runAsk_leaves (hprompt : validatePrompt prompt = .ok ()) :
    (asking (runAsk prompt)).Meets (protocol (.askOpenAiCodex prompt)) (Leaves prompt) [] := by
  refine Program.meets_lift_request_bind.mpr ⟨⟨rfl, rfl⟩, fun started _ => ?_⟩
  cases started with
  | error _ => exact ⟨trivial, fun a _ => .nothing rfl rfl⟩
  | ok sessionId =>
    refine Program.meets_lift_request_bind.mpr ⟨trivial, fun answer hanswer => ?_⟩
    cases answer with
    | ok text => exact answered_leaves
    | error error =>
      have hne : error ≠ .invalidPrompt := by
        intro heq
        exact hanswer hprompt (by rw [heq])
      dsimp only
      split
      · exact absurd ‹_› hne
      · exact notAnswered_leaves

end

/-! ## The other commands -/

/-- A request that does nothing to a session. -/
def Quiet : Request → Prop
  | .ask (.start _) | .ask (.appendAssistant _) | .ask (.appendFailure _) | .ask .rollback => False
  | _ => True

abbrev AsksQuiet {α : Type} (p : AppProgram α) : Prop := p.Asks Quiet fun _ => True

theorem taken_quiet {r : Request} (hr : Quiet r) (a : Answer r) : taken none ⟨r, a⟩ = none := by
  cases r with
  | ask r =>
    cases r with
    | start prompt => exact absurd hr id
    | _ => rfl
  | _ => rfl

theorem AsksQuiet.meets {α : Type} {p : AppProgram α} {command : Command} (hp : AsksQuiet p) :
    p.Meets (protocol command) (fun h _ => sessionOf h = none) [] := by
  suffices hmeets : p.Meets (protocol command) (fun h _ => sessionOf h = none ∧ True) [] from hmeets.mono fun h a hJ => hJ.1
  refine Program.Asks.meets (J := fun h => sessionOf h = none) hp rfl ?_ ?_
  · intro h r hnone hr
    cases r with
    | ask r =>
      cases r with
      | stdout _ | stderr _ | askOpenAiCodex _ => trivial
      | _ => exact absurd hr id
    | list | inspect _ => exact hnone
    | _ => trivial
  · intro h r a hnone hr _
    rw [sessionOf_snoc, hnone, taken_quiet hr]

theorem errorLine_quiet {result : Except ErrorKind Unit} {text : String} : AsksQuiet (asking (errorLine result text)) :=
  ⟨trivial, fun _ => trivial⟩

theorem outputLine_quiet {stdout stderr : Except ErrorKind Unit} {text : String} :
    AsksQuiet (asking (outputLine stdout stderr text)) := by
  rcases stdout with (_ | _) | _
  · trivial
  · exact errorLine_quiet
  · trivial

theorem warningLines_quiet {stderr : Except ErrorKind Unit} {entries : List SessionSummary} :
    AsksQuiet (asking (warningLines stderr entries)) := by
  induction entries generalizing stderr with
  | nil => trivial
  | cons entry entries ih => exact ⟨trivial, fun _ => ih⟩

theorem fragmentLine_quiet {shown : ShowResult} : AsksQuiet (asking (fragmentLine shown)) := by
  unfold fragmentLine
  split
  · exact errorLine_quiet
  · trivial

theorem reporting_quiet (outputError : Except ErrorKind Unit) (r : LoginRequest) : AsksQuiet (reporting outputError r) := by
  cases r with
  | report progress =>
    cases outputError with
    | error e => trivial
    | ok u => exact ⟨trivial, fun _ => trivial⟩
  | _ => exact ⟨trivial, fun _ => trivial⟩

theorem loggedIn_quiet (x : Except ErrorKind Unit × Except LoginError ConnectedAccount) : AsksQuiet (loggedIn x) := by
  obtain ⟨outputError, result⟩ := x
  cases outputError with
  | error e => trivial
  | ok u => cases result <;> exact ⟨trivial, fun _ => trivial⟩

section
variable {tables : EscapeTables} {login : LoginCall ConnectedAccount}

theorem runCommand_quiet {command : Command} (hne : ∀ prompt, command ≠ .askOpenAiCodex prompt) :
    AsksQuiet (runCommand tables login command) := by
  cases command with
  | askOpenAiCodex prompt => exact absurd rfl (hne prompt)
  | sessionList =>
    refine ⟨trivial, fun listed => ?_⟩
    cases listed with
    | error e => exact ⟨trivial, fun _ => trivial⟩
    | ok entries =>
      refine Program.asks_request_bind trivial fun stdout => ?_
      exact Program.Asks.bind warningLines_quiet fun stderr _ => Program.Asks.bind outputLine_quiet fun _ _ => trivial
  | sessionShow sessionId =>
    refine ⟨trivial, fun shown => ?_⟩
    cases shown with
    | error e => exact ⟨trivial, fun _ => trivial⟩
    | ok shown =>
      refine Program.asks_request_bind trivial fun stdout => ?_
      exact Program.Asks.bind fragmentLine_quiet fun stderr _ => Program.Asks.bind outputLine_quiet fun _ _ => trivial
  | loginOpenAiCodex => exact (Program.Asks.interpret reporting_quiet login.run (.ok ())).bind fun x _ => loggedIn_quiet x
  | logoutOpenAiCodex | statusOpenAiCodex =>
    refine ⟨trivial, fun a => ?_⟩
    cases a <;> exact ⟨trivial, fun _ => trivial⟩
  | modelTestOpenAiCodex =>
    refine ⟨trivial, fun tested => ?_⟩
    cases tested with
    | error e => exact ⟨trivial, fun _ => trivial⟩
    | ok text =>
      refine ⟨trivial, fun stdout => ?_⟩
      rcases stdout with (_ | _) | _
      · trivial
      · exact ⟨trivial, fun _ => trivial⟩
      · trivial
  | _ => exact ⟨trivial, fun _ => trivial⟩

/-- What a process leaves when it ends. -/
def Ended (command : Command) (h : AppHistory) (c : Completion) : Prop :=
  match command with
  | .askOpenAiCodex prompt => Leaves prompt h c
  | _ => sessionOf h = none

theorem validatePrompt_of_parse {arguments : List OsString} {prompt : String}
    (h : parseCommand arguments = .askOpenAiCodex prompt) : validatePrompt prompt = .ok () := by
  cases (parseCommand_eq_iff id).mp h with
  | ask _ hvalid => exact validatePrompt_of_valid hvalid

theorem runApplication_ended (arguments : List OsString) :
    (runApplication tables login arguments).Meets (protocol (parseCommand arguments)) (Ended (parseCommand arguments)) [] := by
  unfold runApplication Ended
  split
  next prompt hparse =>
    rw [hparse]
    exact runAsk_leaves (validatePrompt_of_parse hparse)
  next hne => exact AsksQuiet.meets (runCommand_quiet hne)

end

/-! ## What the store has of a session -/

section
variable {ι : Type} [DecidableEq ι]

/-- The session that is being written. -/
def liveId : Option (String × Life) → Option String
  | some (id, .live _) => some id
  | _ => none

/-- The life of a session that is started for what a line asks. -/
def Told (command : Command) (l : Life) : Prop :=
  ∃ prompt, command = .askOpenAiCodex prompt ∧ (l = .live prompt ∨ ∃ terminal, l = .ended prompt terminal)

/-- The lives of ids are those of the sessions that the processes have
started, each of them its own, and who writes one is the one who started it. -/
structure Tracked (commands : ι → Command) (tr : List (Happening ι Answer)) (s : Store ι) (L : String → Life) : Prop where
  kept : Kept s L
  own : ∀ i id l, session i tr = some (id, l) → L id = l ∧ Told (commands i) l
  known : ∀ id, L id ≠ .absent → ∃ i l, session i tr = some (id, l)
  unique : ∀ i j id l l', session i tr = some (id, l) → session j tr = some (id, l') → i = j
  writer : ∀ i, written s i = liveId (session i tr)
  dead : ∀ i, .killed i ∈ tr → liveId (session i tr) = none

/-- What happens has nothing to do with the other processes. -/
structure Concerns (i : ι) (tr : List (Happening ι Answer)) (x : Happening ι Answer) (s t : Store ι) : Prop where
  session : ∀ j, j ≠ i → session j (tr ++ [x]) = session j tr
  written : ∀ j, j ≠ i → written t j = written s j
  killed : ∀ j, j ≠ i → .killed j ∈ tr ++ [x] → .killed j ∈ tr

variable {commands : ι → Command} {s t s₀ : Store ι} {i j : ι} {op : Operation} {tr : List (Happening ι Answer)} {x : Happening ι Answer}
  {L L' : String → Life} {id : String} {l l' : Life}

theorem Told.ne_absent {command : Command} (h : Told command l) : l ≠ .absent := by
  obtain ⟨prompt, -, rfl | ⟨terminal, rfl⟩⟩ := h <;> nofun

theorem Concerns.exchanged {e : Event Answer} (hwritten : ∀ j, j ≠ i → Cli.written t j = Cli.written s j) :
    Concerns i tr (.exchanged i e) s t where
  session j hj := by simp [happened, Ne.symm hj]
  written := hwritten
  killed j _ h := by simpa using h

theorem Concerns.killing (hwritten : ∀ j, j ≠ i → Cli.written t j = Cli.written s j) : Concerns i tr (.killed i) s t where
  session j hj := by simp [happened, Ne.symm hj]
  written := hwritten
  killed j hj h := by simpa [hj] using h

theorem written_other (h : Step i s op t) {j : ι} (hj : j ≠ i) : written t j = written s j := by
  cases h <;> simp [written, Store.after, hj]

/-- The session that an operation starts. -/
def begun : Operation → Option String
  | .started _ (.ok id) => some id
  | _ => none

theorem written_self (h : Step i s op t) : written t i = begun op := by
  cases h with
  | @start files x src prompt hi hr => cases x <;> simp [written, Store.after, begun, Except.map, Except.toOption]
  | _ => simp [written, Store.after, begun]

/-- Nothing comes of any session. -/
theorem Tracked.stays (ht : Tracked commands tr s L) (hk : Kept t L) (hc : Concerns i tr x s t)
    (hself : session i (tr ++ [x]) = session i tr) (hwritten : written t i = written s i)
    (hdead : .killed i ∈ tr ++ [x] → liveId (session i tr) = none) : Tracked commands (tr ++ [x]) t L := by
  have hsession : ∀ j, session j (tr ++ [x]) = session j tr := by
    intro j
    by_cases hj : j = i
    · rw [hj, hself]
    · exact hc.session j hj
  refine ⟨hk, fun j => ?_, fun id h => ?_, fun j j' => ?_, fun j => ?_, fun j hj => ?_⟩
  · rw [hsession]
    exact ht.own j
  · obtain ⟨j, l, h⟩ := ht.known id h
    exact ⟨j, l, (hsession j).trans h⟩
  · rw [hsession, hsession]
    exact ht.unique j j'
  · rw [hsession, ← ht.writer]
    by_cases hij : j = i
    · rw [hij, hwritten]
    · exact hc.written j hij
  · rw [hsession]
    by_cases hij : j = i
    · subst hij
      exact hdead hj
    · exact ht.dead j (hc.killed j hij hj)

/-- Something comes of the session of one process, and of no other. -/
theorem Tracked.moves (ht : Tracked commands tr s L) (hk : Kept t L') (hc : Concerns i tr x s t)
    (hself : session i (tr ++ [x]) = some (id, l')) (hlife : L' id = l' ∧ Told (commands i) l')
    (hlives : ∀ id', id' ≠ id → L' id' = L id')
    (hbefore : (session i tr = none ∧ L id = .absent) ∨ ∃ l, session i tr = some (id, l))
    (hwritten : written t i = liveId (some (id, l')))
    (hdead : .killed i ∈ tr ++ [x] → liveId (some (id, l')) = none) : Tracked commands (tr ++ [x]) t L' := by
  -- Nobody else has started this session.
  have hfree : ∀ j, j ≠ i → ∀ l, session j tr ≠ some (id, l) := by
    intro j hj l h
    rcases hbefore with ⟨-, habsent⟩ | ⟨l₀, h₀⟩
    · exact (ht.own j id l h).2.ne_absent ((ht.own j id l h).1.symm.trans habsent)
    · exact hj (ht.unique j i id l l₀ h h₀)
  refine ⟨hk, fun j id' l h => ?_, fun id' h => ?_, fun j j' id' l₁ l₂ h h' => ?_, fun j => ?_, fun j hj => ?_⟩
  · by_cases hj : j = i
    · subst hj
      rw [hself] at h
      cases h
      exact hlife
    · rw [hc.session j hj] at h
      have hid : id' ≠ id := by
        intro hid
        subst hid
        exact hfree j hj l h
      rw [hlives id' hid]
      exact ht.own j id' l h
  · by_cases hid : id' = id
    · exact ⟨i, l', hid ▸ hself⟩
    · obtain ⟨j, l, hl⟩ := ht.known id' (hlives id' hid ▸ h)
      have hj : j ≠ i := by
        intro hj
        subst hj
        rcases hbefore with ⟨hnone, -⟩ | ⟨l₀, h₀⟩
        · rw [hnone] at hl
          cases hl
        · rw [h₀] at hl
          cases hl
          exact hid rfl
      exact ⟨j, l, (hc.session j hj).trans hl⟩
  · by_cases hj : j = i <;> by_cases hj' : j' = i
    · rw [hj, hj']
    · rw [hj, hself] at h
      rw [hc.session j' hj'] at h'
      cases h
      exact absurd h' (hfree j' hj' l₂)
    · rw [hj', hself] at h'
      rw [hc.session j hj] at h
      cases h'
      exact absurd h (hfree j hj l₁)
    · rw [hc.session j hj] at h
      rw [hc.session j' hj'] at h'
      exact ht.unique j j' id' l₁ l₂ h h'
  · by_cases hj : j = i
    · rw [hj, hself, hwritten]
    · rw [hc.session j hj, hc.written j hj, ht.writer]
  · by_cases hij : j = i
    · subst hij
      rw [hself]
      exact hdead hj
    · rw [hc.session j hij]
      exact ht.dead j (hc.killed j hij hj)

omit [DecidableEq ι] in
/-- No life goes on by what ends nothing. -/
theorem lives_still (hgoes : Goes i s L op t L') (hop : ∀ id l, Life.next id l op = some l) : L' = L :=
  funext fun id => Option.some.inj ((hgoes.lives id).symm.trans (hop id (L id)))

/-- A process that has started no session, and starts none. -/
theorem Tracked.quiet (ht : Tracked commands tr s L) {e : Event Answer} (hsession : session i tr = none) (hself : taken none e = none)
    (hstep : Step i s op t) (hbegun : begun op = none) (hop : ∀ id l, Life.next id l op = some l) :
    ∃ L', Tracked commands (tr ++ [.exchanged i e]) t L' ∧ ∀ id, (L id).next id op = some (L' id) := by
  obtain ⟨L', hgoes⟩ := ht.kept.step hstep
  obtain rfl := lives_still hgoes hop
  have hkilled : .killed i ∈ tr ++ [.exchanged i e] → liveId (session i tr) = none := fun _ => by rw [hsession]; rfl
  refine ⟨L', ht.stays hgoes.kept (.exchanged fun j => written_other hstep) ?_ ?_ hkilled, hgoes.lives⟩
  · simp [happened, hsession, hself]
  · rw [written_self hstep, hbegun, ht.writer, hsession]
    rfl

/-- A process starts a session, under an id that no process has. -/
theorem Tracked.starts (ht : Tracked commands tr s L) (hsession : session i tr = none) (halive : .killed i ∉ tr) {prompt : String}
    (hcommand : commands i = .askOpenAiCodex prompt) (hstep : Step i s (.started prompt (.ok id)) t) :
    ∃ L', Tracked commands (tr ++ [.exchanged i ⟨.ask (.start prompt), .ok id⟩]) t L' ∧
      ∀ id', (L id').next id' (.started prompt (.ok id)) = some (L' id') := by
  obtain ⟨L', hgoes⟩ := ht.kept.step hstep
  have habsent : L id = .absent := by
    by_contra hne
    obtain ⟨j, l, hl⟩ := ht.known id hne
    obtain ⟨hlife, prompt', -, rfl | ⟨terminal, rfl⟩⟩ := ht.own j id l hl
    all_goals
      have hlives := hgoes.lives id
      rw [hlife] at hlives
      simp [Life.next] at hlives
  have hlive : L' id = .live prompt := by
    have hlives := hgoes.lives id
    rw [habsent] at hlives
    simpa [Life.next] using hlives.symm
  refine ⟨L', ht.moves hgoes.kept (.exchanged fun j => written_other hstep) ?_ ⟨hlive, prompt, hcommand, .inl rfl⟩
    (fun id' hid => ?_) (.inl ⟨hsession, habsent⟩) (written_self hstep) (fun hkilled => ?_), hgoes.lives⟩
  · simp [happened, hsession, taken]
  · simpa [Life.next, Ne.symm hid] using (hgoes.lives id').symm
  · exact absurd hkilled (by simpa using halive)

/-- A process ends the session that it has started. -/
theorem Tracked.ends (ht : Tracked commands tr s L) (hc : Concerns i tr x s t) {prompt : String} (terminal : Option ProjectedTerminal)
    (hsession : session i tr = some (id, .live prompt)) (hself : session i (tr ++ [x]) = some (id, .ended prompt terminal))
    (hstep : Step i s op t) (hbegun : begun op = none) (hnext : Life.next id (.live prompt) op = some (.ended prompt terminal))
    (hothers : ∀ id', id' ≠ id → ∀ l, Life.next id' l op = some l) :
    ∃ L', Tracked commands (tr ++ [x]) t L' ∧ ∀ id, (L id).next id op = some (L' id) := by
  obtain ⟨L', hgoes⟩ := ht.kept.step hstep
  have htold : Told (commands i) (.ended prompt terminal) := by
    obtain ⟨-, prompt', hcommand, heq | ⟨terminal', heq⟩⟩ := ht.own i id _ hsession
    · cases heq
      exact ⟨prompt, hcommand, .inr ⟨terminal, rfl⟩⟩
    · cases heq
  have hended : L' id = .ended prompt terminal := by
    have hlives := hgoes.lives id
    rw [(ht.own i id _ hsession).1, hnext] at hlives
    exact (Option.some.inj hlives).symm
  refine ⟨L', ht.moves hgoes.kept hc hself ⟨hended, htold⟩ (fun id' hid => ?_) (.inr ⟨_, hsession⟩)
    ((written_self hstep).trans hbegun) (fun _ => rfl), hgoes.lives⟩
  exact Option.some.inj ((hgoes.lives id').symm.trans (hothers id' hid _))

/-- What a process writes is the session that it has started. -/
theorem Tracked.written_live (ht : Tracked commands tr s L) {prompt : String} (hsession : session i tr = some (id, .live prompt)) :
    (written s i).getD "" = id := by
  rw [ht.writer, hsession]
  rfl

section
variable {S : SerdeJson} {fromStr : String → Option Json} {limits : Sse.Limits} {platform : Platform}

/-- **Every exchange keeps the store tracked.** -/
theorem Tracked.exchanged (ht : Tracked commands tr s L) (halive : .killed i ∉ tr) {r : Request} {a : Answer r}
    (hguar : (protocol (commands i)).guar (Processes.own i tr) r) (hp : Performs S fromStr limits platform i s r a t) :
    ∃ L', Tracked commands (tr ++ [.exchanged i ⟨r, a⟩]) t L' ∧
      match operation ((written s i).getD "") ⟨r, a⟩ with
      | some op => ∀ id, (L id).next id op = some (L' id)
      | none => L' = L := by
  have hsession := session_alive halive
  have hdone := hp.2
  -- The requests that are no operation on the store.
  have hother : operation ((written s i).getD "") ⟨r, a⟩ = none →
      (∀ y, taken y ⟨r, a⟩ = y) → t = s → Tracked commands (tr ++ [.exchanged i ⟨r, a⟩]) t L := by
    intro _ htaken hts
    subst hts
    refine ht.stays ht.kept (.exchanged fun _ _ => rfl) ?_ rfl fun hkilled => ?_
    · simp [happened, htaken]
    · exact absurd hkilled (by simpa using halive)
  have hends : ∀ {outcome : ProjectedTerminal} {x : Except SessionLog.AppendError Unit} {id prompt : String},
      session i tr = some (id, .live prompt) → operation id ⟨r, a⟩ = some (.appended id outcome x) →
        Step i s (.appended id outcome x) t →
          ∃ L', Tracked commands (tr ++ [.exchanged i ⟨r, a⟩]) t L' ∧ ∀ id', (L id').next id' (.appended id outcome x) = some (L' id') := by
    intro outcome x id prompt hlive hop hstep
    refine ht.ends (.exchanged fun j => written_other hstep) (if x.isOk then some outcome else none) hlive ?_ hstep rfl ?_ ?_
    · cases x <;> simp [happened, hlive, taken, hop, Life.next, Except.isOk, Except.toBool]
    · cases x <;> simp [Life.next, Except.isOk, Except.toBool]
    · intro id' hid l
      simp [Life.next, Ne.symm hid]
  cases r with
  | ask r =>
    cases r with
    | start prompt =>
      have hnone : session i tr = none := hsession.trans hguar.1
      cases a with
      | ok id => exact ht.starts hnone halive hguar.2 hdone
      | error e => exact ht.quiet hnone rfl hdone rfl fun _ _ => rfl
    | appendAssistant text =>
      obtain ⟨id, prompt, hlive⟩ := hguar
      rw [← hsession] at hlive
      rw [ht.written_live hlive] at hdone ⊢
      exact hends hlive rfl hdone
    | appendFailure failure =>
      obtain ⟨id, prompt, hlive⟩ := hguar
      rw [← hsession] at hlive
      rw [ht.written_live hlive] at hdone ⊢
      exact hends hlive rfl hdone
    | rollback => exact absurd hguar id
    | _ => exact ⟨L, hother rfl (fun y => by cases y <;> rfl) hdone, rfl⟩
  | list => exact ht.quiet (hsession.trans hguar) rfl hdone rfl fun _ _ => rfl
  | inspect id => exact ht.quiet (hsession.trans hguar) rfl hdone rfl fun _ _ => rfl
  | _ => exact ⟨L, hother rfl (fun y => by cases y <;> rfl) hdone, rfl⟩

/-- **So does every kill.** -/
theorem Tracked.killed (ht : Tracked commands tr s L) (hk : Kills i s t) :
    ∃ L', Tracked commands (tr ++ [.killed i]) t L' ∧
      ((t = s ∧ L' = L) ∨ ∃ id, Step i s (.dropped id) t ∧ ∀ id', (L id').next id' (.dropped id) = some (L' id')) := by
  obtain ⟨id, hstep⟩ | ⟨hnone, rfl⟩ := hk
  · have hwritten : written s i = some id := by
      cases hstep with
      | drop hw _ => simp [written, hw]
    rw [ht.writer] at hwritten
    have hlive : ∃ prompt, session i tr = some (id, .live prompt) := by
      unfold liveId at hwritten
      split at hwritten
      · rename_i prompt heq
        cases hwritten
        exact ⟨prompt, heq⟩
      · cases hwritten
    obtain ⟨prompt, hlive⟩ := hlive
    have hends := ht.ends (.killing fun j => written_other hstep) none hlive ?_ hstep rfl ?_ ?_
    · obtain ⟨L', ht', hlives⟩ := hends
      exact ⟨L', ht', .inr ⟨id, hstep, hlives⟩⟩
    · simp [happened, hlive, cut]
    · simp [Life.next]
    · intro id' hid l
      simp [Life.next, Ne.symm hid]
  · have hwritten : liveId (session i tr) = none := by rw [← ht.writer, written, hnone]; rfl
    refine ⟨L, ht.stays ht.kept (.killing fun _ _ => rfl) ?_ rfl fun _ => hwritten, .inl ⟨rfl, rfl⟩⟩
    rw [session_snoc]
    simp only [happened, if_pos]
    unfold cut
    split
    · rename_i heq
      rw [heq] at hwritten
      cases hwritten
    · rfl

end

/-! ## Runs -/

section
variable (S : SerdeJson) (fromStr : String → Option Json) (limits : Sse.Limits) (platform : Platform)
  (tables : EscapeTables) (login : ι → LoginCall ConnectedAccount) (arguments : ι → List OsString)

/-- The processes before any of them has asked for anything. -/
def launched (s₀ : Store ι) : Processes ι Request Answer Completion (Store ι) where
  shared := s₀
  prog i := some (runApplication tables (login i) (arguments i))

abbrev Runs (w : Processes ι Request Answer Completion (Store ι)) :=
  Processes.Run (Performs S fromStr limits platform) Kills w

variable {S fromStr limits platform tables login arguments} {w : Processes ι Request Answer Completion (Store ι)}

theorem performs_rely {command : Command} {r : Request} {a : Answer r} (h : AppHistory) (hp : Performs S fromStr limits platform i s r a t) :
    (protocol command).rely h r a := by
  cases r with
  | ask r =>
    cases r with
    | askOpenAiCodex prompt => exact fun hprompt => answers_prompt hprompt (hp.1 prompt a rfl)
    | _ => trivial
  | _ => trivial

/-- **Any run is tracked**: the store is one that operations of any parties
reach, and each process is at a point that its commands allow. -/
theorem Runs.tracked (hempty : s₀.Empty) (hrun : Runs S fromStr limits platform (launched tables login arguments s₀) tr w) :
    (∃ ops L, s₀.Reaches ops w.shared ∧ (∀ id, life id ops = some (L id)) ∧ Tracked (fun i => parseCommand (arguments i)) tr w.shared L) ∧
      ∀ i p, w.prog i = some p → p.Meets (protocol (parseCommand (arguments i))) (Ended (parseCommand (arguments i))) (Processes.own i tr) := by
  refine Processes.Run.invariant (C := fun i => protocol (parseCommand (arguments i)))
    (I := fun tr s => ∃ ops L, s₀.Reaches ops s ∧ (∀ id, life id ops = some (L id)) ∧ Tracked (fun i => parseCommand (arguments i)) tr s L) ?_ ?_ ?_ ?_ hrun
  · refine ⟨[], _, .nil, fun _ => rfl, hempty.kept, nofun, fun id h => absurd rfl h, nofun, fun i => ?_, nofun⟩
    simp [launched, Cli.written, hempty.writers i, Cli.session, liveId]
  · intro i p hp
    cases hp
    exact runApplication_ended (arguments i)
  · intro tr s i r a t hI halive hguar hp
    obtain ⟨ops, L, hreaches, hlife, ht⟩ := hI
    refine ⟨performs_rely _ hp, ?_⟩
    obtain ⟨L', ht', hlives⟩ := ht.exchanged halive hguar hp
    have hdone := hp.2
    split at hdone
    next op hop =>
      rw [hop] at hlives
      refine ⟨ops ++ [op], L', hreaches.snoc hdone, fun id => ?_, ht'⟩
      rw [life_snoc, hlife, Option.bind_some, hlives]
    next hop =>
      rw [hop] at hlives
      obtain rfl : L' = L := hlives
      exact ⟨ops, L', hdone ▸ hreaches, hlife, ht'⟩
  · intro tr s i t hI halive hk
    obtain ⟨ops, L, hreaches, hlife, ht⟩ := hI
    obtain ⟨L', ht', ⟨rfl, rfl⟩ | ⟨id, hstep, hlives⟩⟩ := ht.killed hk
    · exact ⟨ops, L', hreaches, hlife, ht'⟩
    · refine ⟨ops ++ [.dropped id], L', hreaches.snoc hstep, fun id' => ?_, ht'⟩
      rw [life_snoc, hlife, Option.bind_some, hlives]

/-- Where something is exchanged, the run before it is tracked. -/
theorem Runs.tracked_at (hempty : s₀.Empty) {before after : List (Happening ι Answer)} {r : Request} {a : Answer r}
    (hrun : Runs S fromStr limits platform (launched tables login arguments s₀) (before ++ .exchanged j ⟨r, a⟩ :: after) w) :
    ∃ m L t, Runs S fromStr limits platform (launched tables login arguments s₀) before m ∧
      Tracked (fun i => parseCommand (arguments i)) before m.shared L ∧ Performs S fromStr limits platform j m.shared r a t := by
  obtain ⟨m, hbefore, hafter⟩ := hrun.split
  obtain ⟨k, t, -, hp, -⟩ := hafter.head
  obtain ⟨⟨ops, L, -, -, ht⟩, -⟩ := Runs.tracked hempty hbefore
  exact ⟨m, L, t, hbefore, ht, hp⟩

/-! ## What is shown -/

/-- What is shown of a session in each part of its life. -/
def ShownAs (id : String) (x : Except ShowError ShowResult) : Life → Prop
  | .live _ => x = .error .busy
  | .ended prompt terminal => ∃ session : Session, session.sessionId = id ∧ session.prompt = prompt ∧
    x = .ok (session.shown terminal false)
  | .absent | .removed => False

omit [DecidableEq ι] in
/-- What is not stored is not shown. -/
theorem outcome_unstored {files : SessionLog.FileSystem ι} (h : files.sessions id = none) (shown : ShowResult) :
    files.still.outcome id ≠ .ok shown := by
  have hsession : files.still.session id = .error .notFound := by
    simp [SessionLog.FileSystem.still, SessionLog.FileSystem.lstat, h]
  have hresult : (files.still.inspection id).result = .error .missing := by
    rw [SessionLog.Still.inspection, hsession]
    rfl
  rw [SessionLog.Still.outcome, hresult]
  cases files.still.validate .application <;> cases files.still.validate .sessions <;> rintro ⟨⟩

/-- **What a process is shown** of a session is what the one that started it
has made of it, and no other session is shown. -/
theorem Tracked.shown (ht : Tracked commands tr s L) {x : Except ShowError ShowResult} (hstep : Step j s (.shown id x) t) :
    (∀ i l, session i tr = some (id, l) → ShownAs id x l) ∧
      ((∃ r, x = .ok r) → ∃ i prompt terminal, session i tr = some (id, .ended prompt terminal)) := by
  cases hstep with
  | inspect _ hi hr =>
    have hpresents := ht.kept.presents id
    constructor
    · intro i l hl
      obtain ⟨hlife, prompt, -, rfl | ⟨terminal, rfl⟩⟩ := ht.own i id l hl
      · rw [hlife] at hpresents
        exact ((hpresents.2.2 j hi).returns hr).2
      · rw [hlife] at hpresents
        obtain ⟨-, -, session, hid, hprompt, hshown⟩ := hpresents
        exact ⟨session, hid, hprompt, ((hshown j hi).returns hr).2⟩
    · intro hr'
      obtain ⟨r, rfl⟩ := hr'
      have hunstored : s.files.sessions id ≠ none := by
        intro hnone
        by_cases hid : SessionLog.validId id = true
        · exact outcome_unstored hnone r ((SessionLog.showSession_alone hid fun _ h => ht.kept.unlocked hi h).returns hr).2.symm
        · rw [showSession, if_pos (by simpa using hid)] at hr
          cases hr
      cases hlife : L id with
      | absent | removed =>
        rw [hlife] at hpresents
        exact absurd hpresents.1 hunstored
      | live prompt =>
        rw [hlife] at hpresents
        cases ((hpresents.2.2 j hi).returns hr).2
      | ended prompt terminal =>
        obtain ⟨i, l, hl⟩ := ht.known id (by simp [hlife])
        obtain rfl := (ht.own i id l hl).1
        exact ⟨i, prompt, terminal, hlife ▸ hl⟩

/-- A session that is being written is one of a process that is still running. -/
theorem live_running (hempty : s₀.Empty) (hrun : Runs S fromStr limits platform (launched tables login arguments s₀) tr w)
    {prompt : String} (hlive : session i tr = some (id, .live prompt)) : ∃ r k, w.prog i = some (.ask r k) := by
  obtain ⟨⟨ops, L, -, -, ht⟩, hmeets⟩ := Runs.tracked hempty hrun
  cases hp : w.prog i with
  | none =>
    have hdead := ht.dead i (hrun.killed_of_none rfl hp)
    rw [hlive] at hdead
    cases hdead
  | some p =>
    cases p with
    | ask r k => exact ⟨r, k, rfl⟩
    | ret c =>
      have hended : Ended _ _ c := hmeets i _ hp
      rw [session_alive (hrun.alive hp)] at hlive
      unfold Ended at hended
      split at hended
      · cases hended with
        | nothing hnone _ =>
          rw [hnone] at hlive
          cases hlive
        | session hsession _ _ _ =>
          rw [hsession] at hlive
          cases hlive
      · rw [hended] at hlive
        cases hlive

/-- **A session is shown as its question has gone.** In any run of any
processes whose operations are whole, whatever a process is shown of a session
is what has become of it in the one process that started it: busy while it is
written, and that process is then still running; the question and how it ended
from then on, and no answer when that could not be appended or the process was
killed before. No other session is ever shown. -/
theorem session_shown (hempty : s₀.Empty) {before after : List (Happening ι Answer)} {x : Except ShowError ShowResult}
    (hrun : Runs S fromStr limits platform (launched tables login arguments s₀)
      (before ++ .exchanged j ⟨.inspect id, x⟩ :: after) w) :
    (∀ i l, session i before = some (id, l) → Told (parseCommand (arguments i)) l ∧ ShownAs id x l ∧
      (∀ i' l', session i' before = some (id, l') → i' = i) ∧
      ∀ prompt, l = .live prompt → ∃ m r k, Runs S fromStr limits platform (launched tables login arguments s₀) before m ∧
        m.prog i = some (.ask r k)) ∧
    ((∃ r, x = .ok r) → ∃ i prompt terminal, session i before = some (id, .ended prompt terminal)) := by
  obtain ⟨m, L, t, hbefore, ht, hp⟩ := Runs.tracked_at hempty hrun
  obtain ⟨hshown, hknown⟩ := ht.shown hp.2
  refine ⟨fun i l hl => ⟨(ht.own i id l hl).2, hshown i l hl, fun i' l' hl' => ht.unique i' i id l' l hl' hl, ?_⟩, hknown⟩
  intro prompt hlive
  obtain ⟨r, k, hp⟩ := live_running hempty hbefore (hlive ▸ hl)
  exact ⟨m, r, k, hbefore, hp⟩

/-! ## An answer, from the line that asked for it to one that shows it -/

/-- What a process is shown of a session is what it prints, and all. -/
def Shows (id : String) (h : AppHistory) : Prop :=
  (∃ e, ⟨.inspect id, .error e⟩ ∈ h) ∨ ∃ shown a, ⟨.inspect id, .ok shown⟩ ∈ h ∧ ⟨.ask (.stdout (renderSession shown)), a⟩ ∈ h ∧
    ∀ text b, ⟨.ask (.stdout text), b⟩ ∈ h → text = renderSession shown

theorem runSessionShow_shows : (runSessionShow id).Meets anyAsked (fun h _ => Shows id h) [] := by
  refine Program.meets_request_bind.mpr ⟨trivial, fun shown _ => ?_⟩
  cases shown with
  | error e => exact ⟨trivial, fun a _ => .inl ⟨e, by simp⟩⟩
  | ok shown =>
    refine Program.meets_request_bind.mpr ⟨trivial, fun stdout _ => ?_⟩
    refine (fragmentLine_lined anyAsked_unmuted ⟨rfl, .refl _⟩).bind fun h stderr hl => ?_
    refine (outputLine_lined anyAsked_unmuted hl).bind fun h stderr hl => ?_
    refine .inr ⟨shown, stdout, hl.2.subset (by simp), hl.2.subset (by simp), fun text b hmem => ?_⟩
    have hmem := hl.2.mem hmem rfl
    simp only [List.mem_append, List.mem_cons, List.not_mem_nil, or_false, false_or] at hmem
    rcases hmem with hmem | hmem <;> cases hmem
    rfl

/-- A process has printed this, and nothing else. -/
def Prints (i : ι) (tr : List (Happening ι Answer)) (text : String) : Prop :=
  (∃ a, .exchanged i ⟨.ask (.stdout text), a⟩ ∈ tr) ∧ ∀ text' a, .exchanged i ⟨.ask (.stdout text'), a⟩ ∈ tr → text' = text

/-- What is printed of a session that has been answered. -/
def completedText (id prompt out : String) : String :=
  "Session: " ++ id ++ "\nStatus: completed\nProvider: openai-codex\n\nUser:\n" ++ renderModelText prompt ++
    "\nAssistant:\n" ++ out

omit [DecidableEq ι] in
theorem renderSession_completed (session : Session) (text : String) :
    renderSession (session.shown (some (.assistant text)) false) =
      completedText session.sessionId session.prompt (renderModelText text) := by
  have hstatus : "\nStatus: " ++ "completed" ++ "\nProvider: openai-codex\n\nUser:\n" =
      "\nStatus: completed\nProvider: openai-codex\n\nUser:\n" := by decide +kernel
  simp only [renderSession, Session.shown, statusText, completedText, ← hstatus, String.append_assoc]

theorem session_idle {tr' : List (Happening ι Answer)} (hevents : ∀ e, .exchanged i e ∉ tr') (hkilled : .killed i ∉ tr') :
    session i (tr ++ tr') = session i tr := by
  induction tr' using List.reverseRecOn with
  | nil => rw [List.append_nil]
  | append_singleton tr' x ih =>
    simp only [List.mem_append, not_or] at hevents hkilled
    rw [← List.append_assoc, session_snoc, ih (fun e => (hevents e).1) hkilled.1]
    cases x with
    | exchanged j e =>
      have hij : j ≠ i := by
        intro hij
        exact (hevents e).2 (by simp [hij])
      simp [happened, hij]
    | killed j =>
      have hij : j ≠ i := by
        intro hij
        exact hkilled.2 (by simp [hij])
      simp [happened, hij]

theorem status_of_complete {c : Completion} (h : complete c = success) : c.status = success := by
  unfold complete at h
  split at h
  · exact absurd h failure_ne
  · exact h

/-- **An answer that was given is the answer that is shown.** In any run of any
processes whose operations are whole, a question whose process exits with zero
has been answered on its standard output and has announced a session; and
whatever else is run, from then on every process that shows this session and
ends has printed the question and, to the byte, the answer that was printed. -/
theorem answer_shown (hempty : s₀.Empty)
    (hrun : Runs S fromStr limits platform (launched tables login arguments s₀) tr w) {prompt : String} {c : Completion}
    (hcommand : parseCommand (arguments i) = .askOpenAiCodex prompt) (hexit : w.prog i = some (.ret c))
    (hzero : complete c = success) :
    ∃ id out announced, .exchanged i ⟨.ask (.stderr ("Session: " ++ id ++ "\n")), announced⟩ ∈ tr ∧ Prints i tr out ∧
      ∀ tr' w' j c', Runs S fromStr limits platform w tr' w' → parseCommand (arguments j) = .sessionShow id →
        Processes.own j tr = [] → w'.prog j = some (.ret c') → Prints j tr' (completedText id prompt out) := by
  have hended := (Runs.tracked hempty hrun).2 i _ hexit
  rw [hcommand] at hended
  cases Program.meets_ret.mp hended with
  | nothing _ hfailed =>
    rw [status_of_complete hzero] at hfailed
    exact absurd hfailed.symm failure_ne
  | @session id terminal announced hsession hannounced hstatus hprinted =>
    obtain ⟨text, rfl⟩ := hstatus.mp (status_of_complete hzero)
    obtain ⟨⟨a, hout⟩, hall⟩ := hprinted text rfl
    refine ⟨id, renderModelText text, announced, Processes.mem_own.mp hannounced,
      ⟨⟨a, Processes.mem_own.mp hout⟩, fun text' b hmem => hall text' b (Processes.mem_own.mpr hmem)⟩, ?_⟩
    intro tr' w' j c' hrun' hshow hnew hdone
    have hrun'' := hrun.append hrun'
    -- All that this process has exchanged, it has exchanged since.
    have hown : Processes.own j (tr ++ tr') = Processes.own j tr' := by rw [Processes.own_append, hnew, List.nil_append]
    obtain ⟨q, hf, hq⟩ := hrun''.follows (i := j) rfl
    obtain rfl := hq _ hdone
    rw [hown, runApplication, hshow] at hf
    have hshown : ∀ x, .exchanged j ⟨.inspect id, x⟩ ∈ tr' → ShownAs id x (.ended prompt (some (.assistant text))) := by
      intro x hmem
      obtain ⟨pre, post, rfl⟩ := List.append_of_mem hmem
      rw [← List.append_assoc] at hrun''
      obtain ⟨m, hpre, hpost⟩ := hrun'.split
      obtain ⟨-, hevents, hkilled⟩ := hpre.idle hexit
      have hl : session i (tr ++ pre) = some (id, .ended prompt (some (.assistant text))) := by
        rw [session_idle hevents hkilled, session_alive (hrun.alive hexit), hsession]
      obtain ⟨m, L, t, -, ht, hp⟩ := Runs.tracked_at hempty hrun''
      exact (ht.shown hp.2).1 i _ hl
    rcases Program.meets_ret.mp (runSessionShow_shows.follows_free hf) with ⟨e, hmem⟩ | ⟨shown, b, hmem, hprinted, hall⟩
    · obtain ⟨session, -, -, heq⟩ := hshown _ (Processes.mem_own.mp hmem)
      cases heq
    · obtain ⟨session, rfl, rfl, heq⟩ := hshown _ (Processes.mem_own.mp hmem)
      cases heq
      rw [renderSession_completed] at hprinted hall
      exact ⟨⟨b, Processes.mem_own.mp hprinted⟩, fun text' b hmem => hall text' b (Processes.mem_own.mpr hmem)⟩

end

end

/-! ## A question and the line that shows it -/

/-- The question is the first process's. -/
def sampleArguments : Bool → List OsString
  | false => [utf8 "ask", utf8 "openai-codex", utf8 sampleSession.prompt]
  | true => [utf8 "session", utf8 "show", utf8 sampleSession.sessionId]

theorem sample_parse : parseCommand (sampleArguments false) = .askOpenAiCodex sampleSession.prompt ∧
    parseCommand (sampleArguments true) = .sessionShow sampleSession.sessionId :=
  ⟨(parseCommand_eq_iff id).mpr (.ask (by decide) (by decide +kernel)),
    (parseCommand_eq_iff id).mpr (.sessionShow (by decide +kernel))⟩

/-- The exchange of an answer that is decoded. -/
theorem modelCallWith_decoded {fromStr : String → Option Json} {limits : Sse.Limits} {clock : Nat → Nat}
    {reads : List (Except Sse.ReadError Bytes)} {text : String} (h : Sse.decode fromStr limits clock reads = .ok text) :
    modelCallWith fromStr limits clock { client := .ok (), sent := .ok { status := 200, contentType := none, reads } } =
      .ok text := by
  suffices hdecode : (Sse.decode fromStr limits clock reads).mapError mapDecodeError = .ok text from hdecode
  rw [h]
  rfl

/-- The stored credential is good, and the model answers. -/
def sampleUse : List (Event (Auth.Answer String ModelError)) :=
  [⟨.read, .ok (some (Json.render sampleRecord.toJson))⟩, ⟨.unixSeconds, (0 : UInt64)⟩,
    ⟨.operation (authorizedCredential sampleRecord), .ok "é"⟩]

theorem sample_answers :
    Model.Answers serdeJson Sse.serdeFromStr .production { macos := true, refreshLock := .ok () } sampleSession.prompt (.ok "é") := by
  have hused : (withRenewableAuthorizedCredentialFrom (T := String) (E := ModelError) serdeJson
      fun error => error == .connectionRejected).run.Follows sampleUse (.ret (.ok (.ok "é"))) :=
    renewable_uses _ sample_stored sample_notDue "é"
  have hprompt : validatePrompt sampleSession.prompt = .ok () := validatePrompt_of_parse sample_parse.1
  refine ⟨sampleUse, ?_, fun c a hmem => ?_⟩
  · unfold Model.ask
    rw [hprompt]
    exact Program.Follows.bind_ret (f := flatten) hused
  · have ha : a = .ok "é" := by
      simp only [sampleUse, List.mem_cons, List.not_mem_nil, or_false] at hmem
      rcases hmem with hmem | hmem | hmem <;> cases hmem
      rfl
    exact ⟨fun _ => 0, _, ha.trans (modelCallWith_decoded Sse.sample_decoded).symm⟩

/-- The question's process, from its start to its end. -/
def sampleAsk : AppHistory := [
  ⟨.ask (.start sampleSession.prompt), .ok sampleSession.sessionId⟩,
  ⟨.ask (.askOpenAiCodex sampleSession.prompt), .ok "é"⟩,
  ⟨.ask (.appendAssistant "é"), .ok ()⟩,
  ⟨.ask (.stdout (renderModelText "é")), .ok ()⟩,
  ⟨.ask (.stderr ("Session: " ++ sampleSession.sessionId ++ "\n")), .ok ()⟩]

abbrev SamplePerforms :=
  Performs (ι := Bool) serdeJson Sse.serdeFromStr .production { macos := true, refreshLock := .ok () }

def sampleLaunched : Processes Bool Request Answer Completion (Store Bool) :=
  launched asciiTables (fun _ => Auth.login serdeJson true .production sampleSecrets) sampleArguments sampleEmpty

theorem sampleAsk_steps : ∃ s, Steps SamplePerforms sampleEmpty (tagged false sampleAsk) s := by
  have hplay : (((SessionLog.startFile (sampleSession.sources [] []) sampleSession.prompt).run.play
      SessionLog.FileSystem.answer false sampleEmpty.files).bind fun x => x.1.toOption.bind fun w =>
        (((w.drawing sampleSources.ids sampleSources.times).append (.assistant "é")).play SessionLog.FileSystem.answer false
          x.2).map fun y => (w.writer.sessionId, y.1)) = some (sampleSession.sessionId, .ok ()) := by
    decide +kernel
  obtain ⟨⟨x, files⟩, hstart, hplay⟩ := Option.bind_eq_some_iff.mp hplay
  obtain ⟨w, hw, hplay⟩ := Option.bind_eq_some_iff.mp hplay
  obtain ⟨⟨y, files'⟩, happend, hreturned⟩ := Option.map_eq_some_iff.mp hplay
  obtain rfl : x = .ok w := by
    cases x with
    | error e => cases hw
    | ok w' => exact congrArg Except.ok (Option.some.inj hw)
  obtain ⟨hid, rfl⟩ := Prod.mk.inj hreturned
  have hstarted : Step false sampleEmpty (.started sampleSession.prompt (.ok w.writer.sessionId))
      (sampleEmpty.after false files (some w)) :=
    .start (sampleSession.sources [] []) _ rfl (.of_play SessionLog.Exec.of_answer hstart)
  have hwriters := SessionLog.after_self sampleEmpty false files (some w)
  have hended : Step false (sampleEmpty.after false files (some w)) (.appended w.writer.sessionId (.assistant "é") (.ok ())) _ :=
    .append _ _ _ hwriters (.of_play SessionLog.Exec.of_answer happend)
  have hwritten : (written (sampleEmpty.after false files (some w)) false).getD "" = w.writer.sessionId := by
    rw [written, hwriters]
    rfl
  have hasked : SamplePerforms false sampleEmpty (.ask (.start sampleSession.prompt)) (.ok sampleSession.sessionId) _ :=
    ⟨nofun, hid ▸ hstarted⟩
  have hanswered : SamplePerforms false (sampleEmpty.after false files (some w)) (.ask (.askOpenAiCodex sampleSession.prompt))
      (.ok "é") _ := ⟨fun prompt answer heq => by cases heq; exact sample_answers, rfl⟩
  have happended : SamplePerforms false (sampleEmpty.after false files (some w)) (.ask (.appendAssistant "é")) (.ok ()) _ :=
    ⟨nofun, by rw [hwritten]; exact hended⟩
  exact ⟨_, .snoc (.snoc (.snoc (.snoc (.snoc .nil hasked) hanswered) happended) ⟨nofun, rfl⟩) ⟨nofun, rfl⟩⟩

abbrev SampleRuns := Runs (ι := Bool) serdeJson Sse.serdeFromStr .production { macos := true, refreshLock := .ok () }

theorem sampleAsk_follows : (runApplication asciiTables (Auth.login serdeJson true .production sampleSecrets)
    (sampleArguments false)).Follows sampleAsk (.ret { status := success, stdout := .ok (), stderr := .ok () }) := by
  rw [runApplication, sample_parse.1]
  exact .cons (.cons (.cons (.cons (.cons .nil))))

theorem sampleAsk_run : ∃ w, SampleRuns sampleLaunched (sampleAsk.map (.exchanged false)) w ∧
    w.prog false = some (.ret { status := success, stdout := .ok (), stderr := .ok () }) ∧
    w.prog true = sampleLaunched.prog true := by
  obtain ⟨s, hs⟩ := sampleAsk_steps
  exact ⟨_, Processes.Run.of_follows rfl sampleAsk_follows hs, by simp [Processes.put], by simp [Processes.put]⟩

theorem sampleEmpty_empty : sampleEmpty.Empty := ⟨fun _ => rfl, fun _ => rfl⟩

/-- The line that shows the session, once it has been answered. -/
theorem sampleShow_run {w : Processes Bool Request Answer Completion (Store Bool)}
    (hrun : SampleRuns sampleLaunched (sampleAsk.map (.exchanged false)) w) (hp : w.prog true = sampleLaunched.prog true) :
    ∃ shown after w' c, SampleRuns w (.exchanged true ⟨.inspect sampleSession.sessionId, .ok shown⟩ :: after) w' ∧
      w'.prog true = some (.ret c) := by
  obtain ⟨⟨ops, L, -, -, ht⟩, -⟩ := Runs.tracked sampleEmpty_empty hrun
  have hended : session false (sampleAsk.map (.exchanged false)) =
      some (sampleSession.sessionId, .ended sampleSession.prompt (some (.assistant "é"))) := by
    simp [sampleAsk, session, happened, taken, operation, Life.next]
  have hnone : w.shared.writers true = none := by
    have hwriter := ht.writer true
    have hsession : session true (sampleAsk.map (.exchanged false)) = none := rfl
    rw [hsession] at hwriter
    exact Option.map_eq_none_iff.mp hwriter
  have hpresents := ht.kept.presents sampleSession.sessionId
  rw [(ht.own false _ _ hended).1] at hpresents
  obtain ⟨-, -, session, -, -, hshown⟩ := hpresents
  obtain ⟨files, x, hreturns⟩ := (hshown true hnone).exists_returns
  obtain ⟨-, rfl⟩ := (hshown true hnone).returns hreturns
  have hfollows : (runApplication asciiTables (Auth.login serdeJson true .production sampleSecrets) (sampleArguments true)).Follows
      [⟨.inspect sampleSession.sessionId, .ok (session.shown (some (.assistant "é")) false)⟩,
        ⟨.ask (.stdout (renderSession (session.shown (some (.assistant "é")) false))), .ok ()⟩]
      (.ret { status := success, stdout := .ok (), stderr := .ok () }) := by
    rw [runApplication, sample_parse.2]
    exact .cons (.cons .nil)
  have hinspected : SamplePerforms true w.shared (.inspect sampleSession.sessionId)
      (.ok (session.shown (some (.assistant "é")) false)) _ := ⟨by rintro _ _ ⟨⟩, .inspect sampleSession.sessionId hnone hreturns⟩
  have hprinted : SamplePerforms true (w.shared.after true files none)
      (.ask (.stdout (renderSession (session.shown (some (.assistant "é")) false)))) (.ok ()) _ := ⟨by rintro _ _ ⟨⟩, rfl⟩
  have hsteps : Steps SamplePerforms w.shared _ _ := .snoc (.snoc .nil hinspected) hprinted
  have hrun' : SampleRuns w _ _ := Processes.Run.of_follows hp hfollows hsteps
  refine ⟨_, _, _, { status := success, stdout := .ok (), stderr := .ok () }, hrun', ?_⟩
  simp [Processes.put]

theorem session_shown_sample : ∃ x : Except ShowError ShowResult,
    ShownAs sampleSession.sessionId x (.ended sampleSession.prompt (some (.assistant "é"))) := by
  obtain ⟨w, hrun, -, hp⟩ := sampleAsk_run
  obtain ⟨shown, after, w', c, hrun', -⟩ := sampleShow_run hrun hp
  exact ⟨_, ((session_shown sampleEmpty_empty (hrun.append hrun')).1 false _ rfl).2.1⟩

theorem answer_shown_sample : ∃ id out tr, Prints true tr (completedText id sampleSession.prompt out) := by
  obtain ⟨w, hrun, hexit, hp⟩ := sampleAsk_run
  obtain ⟨id, out, announced, hannounced, -, hshows⟩ := answer_shown sampleEmpty_empty hrun sample_parse.1 hexit rfl
  obtain ⟨shown, after, w', c, hrun', hexit'⟩ := sampleShow_run hrun hp
  have hid : id = sampleSession.sessionId := by
    simp only [sampleAsk, List.map_cons, List.map_nil, List.mem_cons, Happening.exchanged.injEq, true_and, List.not_mem_nil,
      or_false] at hannounced
    rcases hannounced with h | h | h | h | h <;> have hrequest := congrArg Sigma.fst h
    · cases hrequest
    · cases hrequest
    · cases hrequest
    · cases hrequest
    · have hline := congrArg String.toList (AskRequest.stderr.inj (Request.ask.inj hrequest))
      exact String.toList_inj.mp (by simpa using hline)
  subst hid
  exact ⟨_, _, _, hshows _ _ true c hrun' sample_parse.2 rfl hexit'⟩

end AgentHarness.Cli
