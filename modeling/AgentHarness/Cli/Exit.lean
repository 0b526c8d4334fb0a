/-
What the exit status tells (`complete`). A completion keeps, for each
stream, the first write on it that failed; the status is zero when what the
line asks for was performed and no such failure is other than a broken pipe,
and two when the line was refused, or its prompt was and its session rolled
back (`exit_status`).
-/
import AgentHarness.Cli.Application

namespace AgentHarness.Cli

open Text Interact Model Auth
open SessionLog (SessionSummary ShowResult)

/-! ## The streams -/

def noteStdout (result : Except ErrorKind Unit) : Event Answer → Except ErrorKind Unit
  | ⟨.ask (.stdout _), a⟩ => retainFirstError result a
  | _ => result

def noteStderr (result : Except ErrorKind Unit) : Event Answer → Except ErrorKind Unit
  | ⟨.ask (.stderr _), a⟩ => retainFirstError result a
  | _ => result

/-- The first write on standard output that failed, if any. -/
def stdoutResult (h : AppHistory) : Except ErrorKind Unit := h.foldl noteStdout (.ok ())

/-- The first write on standard error that failed, if any. -/
def stderrResult (h : AppHistory) : Except ErrorKind Unit := h.foldl noteStderr (.ok ())

@[simp] theorem stdoutResult_snoc (h : AppHistory) (e : Event Answer) :
    stdoutResult (h ++ [e]) = noteStdout (stdoutResult h) e := by
  simp [stdoutResult]

@[simp] theorem stderrResult_snoc (h : AppHistory) (e : Event Answer) :
    stderrResult (h ++ [e]) = noteStderr (stderrResult h) e := by
  simp [stderrResult]

def isStderr : Event Answer → Bool
  | ⟨.ask (.stderr _), _⟩ => true
  | _ => false

/-- Only lines on standard error come after the first history. -/
def Wrote (h h' : AppHistory) : Prop := ∃ es, h' = h ++ es ∧ es.all isStderr = true

section
variable {h h' h'' : AppHistory}

theorem Wrote.refl (h : AppHistory) : Wrote h h := ⟨[], (List.append_nil h).symm, rfl⟩

theorem Wrote.trans (h₁ : Wrote h h') (h₂ : Wrote h' h'') : Wrote h h'' := by
  obtain ⟨es, rfl, hes⟩ := h₁
  obtain ⟨es', rfl, hes'⟩ := h₂
  exact ⟨es ++ es', List.append_assoc .., by rw [List.all_append, hes, hes']; rfl⟩

theorem Wrote.snoc (h₁ : Wrote h h') (text : String) (a : Except ErrorKind Unit) :
    Wrote h (h' ++ [⟨.ask (.stderr text), a⟩]) := h₁.trans ⟨_, rfl, rfl⟩

theorem Wrote.stdout (hw : Wrote h h') : stdoutResult h' = stdoutResult h := by
  obtain ⟨es, rfl, hes⟩ := hw
  induction es using List.reverseRecOn with
  | nil => rw [List.append_nil]
  | append_singleton es e ih =>
    rw [List.all_append, Bool.and_eq_true] at hes
    rw [← List.append_assoc, stdoutResult_snoc, ih hes.1]
    obtain ⟨r, a⟩ := e
    have hlast := hes.2
    cases r with
    | ask r => cases r <;> first | rfl | exact absurd hlast (by simp [isStderr])
    | _ => rfl

/-- What is no line on standard error is in one history when it is in the other. -/
theorem Wrote.any (hw : Wrote h h') {p : Event Answer → Bool} (hp : ∀ text a, p ⟨.ask (.stderr text), a⟩ = false) :
    h'.any p = h.any p := by
  obtain ⟨es, rfl, hes⟩ := hw
  have hnone : es.any p = false := by
    rw [List.any_eq_false]
    intro e he
    have hstderr := List.all_eq_true.mp hes e he
    obtain ⟨r, a⟩ := e
    cases r with
    | ask r =>
      cases r with
      | stderr text => simp [hp]
      | _ => exact absurd hstderr (by simp [isStderr])
    | _ => exact absurd hstderr (by simp [isStderr])
  rw [List.any_append, hnone, Bool.or_false]

end

/-! ## Lines -/

/-- Any line may be written on standard error. -/
def Unmuted (C : Contract Request Answer) : Prop := ∀ h text, C.guar h (.ask (.stderr text))

/-- What has been written on standard error is what is kept, and nothing else was done. -/
def Lined (h₀ : AppHistory) (h : AppHistory) (result : Except ErrorKind Unit) : Prop :=
  result = stderrResult h ∧ Wrote h₀ h

section
variable {C : Contract Request Answer} {h₀ h : AppHistory} {result : Except ErrorKind Unit} {text : String}

theorem errorLine_lined (hC : Unmuted C) (hl : Lined h₀ h result) :
    (asking (errorLine result text)).Meets C (Lined h₀) h := by
  refine Program.meets_lift_request_bind.mpr ⟨hC _ _, fun a _ => ?_⟩
  refine ⟨?_, hl.2.snoc _ a⟩
  rw [stderrResult_snoc, ← hl.1]
  rfl

theorem appendErrorLine_lined {append : Except SessionLog.AppendError Unit} (hC : Unmuted C) (hl : Lined h₀ h result) :
    (asking (appendErrorLine append result)).Meets C (Lined h₀) h := by
  cases append with
  | ok _ => exact hl
  | error _ => exact errorLine_lined hC hl

theorem outputErrorLine_lined {stdout : Except ErrorKind Unit} (hC : Unmuted C) (hl : Lined h₀ h (.ok ())) :
    (asking (outputErrorLine stdout)).Meets C (Lined h₀) h := by
  rcases stdout with (_ | _) | _
  · exact hl
  · exact errorLine_lined hC hl
  · exact hl

theorem outputLine_lined {stdout : Except ErrorKind Unit} (hC : Unmuted C) (hl : Lined h₀ h result) :
    (asking (outputLine stdout result text)).Meets C (Lined h₀) h := by
  rcases stdout with (_ | _) | _
  · exact hl
  · exact errorLine_lined hC hl
  · exact hl

theorem warningLines_lined {entries : List SessionSummary} (hC : Unmuted C) (hl : Lined h₀ h result) :
    (asking (warningLines result entries)).Meets C (Lined h₀) h := by
  induction entries generalizing h result with
  | nil => exact hl
  | cons entry entries ih => exact Program.meets_lift_bind (errorLine_lined hC hl) fun h result hl => ih hl

theorem fragmentLine_lined {shown : ShowResult} (hC : Unmuted C) (hl : Lined h₀ h (.ok ())) :
    (asking (fragmentLine shown)).Meets C (Lined h₀) h := by
  unfold fragmentLine
  split
  · exact errorLine_lined hC hl
  · exact hl

end

/-! ## What is performed -/

abbrev anyAsked : Contract Request Answer := .free fun _ _ => True

theorem anyAsked_unmuted : Unmuted anyAsked := fun _ _ => trivial

/-- The exchange that does what a line asks for. -/
def performs : Command → Event Answer → Bool
  | .askOpenAiCodex _, ⟨.ask (.appendAssistant _), .ok _⟩ => true
  | .sessionList, ⟨.list, .ok _⟩ => true
  | .sessionShow _, ⟨.inspect _, .ok _⟩ => true
  | .loginOpenAiCodex, ⟨.login (.replace _), .ok _⟩ => true
  | .logoutOpenAiCodex, ⟨.logout, .ok _⟩ => true
  | .statusOpenAiCodex, ⟨.status, .ok _⟩ => true
  | .modelTestOpenAiCodex, ⟨.modelTest, .ok _⟩ => true
  | _, _ => false

/-- A rollback, which is done for a prompt that the model refuses. -/
def rollsBack : Event Answer → Bool
  | ⟨.ask .rollback, .ok _⟩ => true
  | _ => false

/-- What the line asks for was done; help is always given. -/
def Performed (command : Command) (h : AppHistory) : Prop :=
  match command with
  | .invalidPrompt | .usageError _ _ => False
  | .askOpenAiCodex _ | .sessionList | .sessionShow _ | .loginOpenAiCodex | .logoutOpenAiCodex | .statusOpenAiCodex |
    .modelTestOpenAiCodex => h.any (performs command) = true
  | _ => True

/-- The line was refused, or its prompt was and its session rolled back. -/
def Refused (command : Command) (h : AppHistory) : Prop :=
  match command with
  | .invalidPrompt | .usageError _ _ => True
  | _ => h.any rollsBack = true

/-- What a completion is of what was done. -/
structure Ends (command : Command) (h : AppHistory) (c : Completion) : Prop where
  stdout : c.stdout = stdoutResult h
  stderr : c.stderr = stderrResult h
  performed : c.status = success → Performed command h
  succeeds : Performed command h → c.status = success ∨ c.stdout = .error .other
  refused : c.status = 2 ↔ Refused command h
  status : c.status = success ∨ c.status = failure ∨ c.status = 2

section
variable {command : Command} {h h' : AppHistory}

theorem failure_ne : failure ≠ success := by decide
theorem failure_ne_two : failure ≠ 2 := by decide
theorem success_ne_two : success ≠ 2 := by decide

/-- What only lines follow is what it was. -/
theorem Wrote.performed (hw : Wrote h h') : Performed command h' ↔ Performed command h := by
  have hany := hw.any (p := performs command) fun text a => by cases command <;> rfl
  cases command <;> simp only [Performed, hany]

theorem Wrote.refused (hw : Wrote h h') : Refused command h' ↔ Refused command h := by
  have hany := hw.any (p := rollsBack) fun text a => rfl
  cases command <;> simp only [Refused, hany]

/-- An action failed that is the line's. -/
theorem failed_ends {error : String} (hout : stdoutResult h = .ok ()) (herr : stderrResult h = .ok ())
    (hperformed : ¬Performed command h) (hrefused : ¬Refused command h) :
    (failed error).Meets anyAsked (Ends command) h := by
  refine ⟨trivial, fun a _ => ?_⟩
  have hw : Wrote h (h ++ [⟨.ask (.stderr ("error: " ++ error ++ "\n")), a⟩]) := (Wrote.refl h).snoc _ a
  refine ⟨?_, ?_, fun hs => absurd hs failure_ne, fun hp => absurd (hw.performed.mp hp) hperformed,
    ⟨fun hs => absurd hs failure_ne_two, fun hr => absurd (hw.refused.mp hr) hrefused⟩, .inr (.inl rfl)⟩
  · rw [hw.stdout, hout]
    rfl
  · rw [stderrResult_snoc, herr]
    rfl

/-- What was asked for is done, and a line says so. -/
theorem done_ends {line : String} (hout : stdoutResult h = .ok ()) (herr : stderrResult h = .ok ())
    (hperformed : ∀ text a, Performed command (h ++ [⟨.ask (.stdout text), a⟩]))
    (hrefused : ∀ text a, ¬Refused command (h ++ [⟨.ask (.stdout text), a⟩])) :
    (done line).Meets anyAsked (Ends command) h := by
  refine ⟨trivial, fun a _ => ?_⟩
  refine ⟨?_, ?_, fun _ => hperformed _ a, fun _ => .inl rfl,
    ⟨fun hs => absurd hs success_ne_two, fun hr => absurd hr (hrefused _ a)⟩, .inl rfl⟩
  · rw [stdoutResult_snoc, hout]
    rfl
  · rw [stderrResult_snoc, herr]
    rfl

theorem runStatus_ends : runStatus.Meets anyAsked (Ends .statusOpenAiCodex) [] := by
  refine Program.meets_request_bind.mpr ⟨trivial, fun connected _ => ?_⟩
  cases connected with
  | ok _ => exact done_ends rfl rfl (fun _ _ => rfl) fun _ _ => Bool.false_ne_true
  | error e => exact failed_ends rfl rfl Bool.false_ne_true Bool.false_ne_true

theorem runLogout_ends : runLogout.Meets anyAsked (Ends .logoutOpenAiCodex) [] := by
  refine Program.meets_request_bind.mpr ⟨trivial, fun deleted _ => ?_⟩
  cases deleted with
  | ok _ => exact done_ends rfl rfl (fun _ _ => rfl) fun _ _ => Bool.false_ne_true
  | error e => exact failed_ends rfl rfl Bool.false_ne_true Bool.false_ne_true

theorem runModelTest_ends : runModelTest.Meets anyAsked (Ends .modelTestOpenAiCodex) [] := by
  refine Program.meets_request_bind.mpr ⟨trivial, fun tested _ => ?_⟩
  cases tested with
  | error e => exact failed_ends rfl rfl Bool.false_ne_true Bool.false_ne_true
  | ok text =>
    refine Program.meets_request_bind.mpr ⟨trivial, fun stdout _ => ?_⟩
    rcases stdout with (_ | _) | _
    · exact ⟨rfl, rfl, fun _ => rfl, fun _ => .inl rfl,
        ⟨fun hs => absurd hs success_ne_two, fun hr => absurd hr Bool.false_ne_true⟩, .inl rfl⟩
    · refine Program.meets_request_bind.mpr ⟨trivial, fun stderr _ => ?_⟩
      exact ⟨rfl, rfl, fun hs => absurd hs failure_ne, fun _ => .inr rfl,
        ⟨fun hs => absurd hs failure_ne_two, fun hr => absurd hr Bool.false_ne_true⟩, .inr (.inl rfl)⟩
    · exact ⟨rfl, rfl, fun _ => rfl, fun _ => .inl rfl,
        ⟨fun hs => absurd hs success_ne_two, fun hr => absurd hr Bool.false_ne_true⟩, .inl rfl⟩

/-- Lines after what was done: what is kept of them ends the run. -/
theorem Lined.ends {stdout stderr : Except ErrorKind Unit} (hl : Lined h h' stderr) (hout : stdoutResult h = stdout)
    (hperformed : Performed command h) (hrefused : ¬Refused command h) :
    Ends command h' { status := success, stdout, stderr } where
  stdout := by rw [hl.2.stdout, hout]
  stderr := hl.1
  performed _ := hl.2.performed.mpr hperformed
  succeeds _ := .inl rfl
  refused := ⟨fun hs => absurd hs success_ne_two, fun hr => absurd (hl.2.refused.mp hr) hrefused⟩
  status := .inl rfl

theorem runSessionList_ends : runSessionList.Meets anyAsked (Ends .sessionList) [] := by
  refine Program.meets_request_bind.mpr ⟨trivial, fun listed _ => ?_⟩
  cases listed with
  | error e => exact failed_ends rfl rfl Bool.false_ne_true Bool.false_ne_true
  | ok entries =>
    refine Program.meets_request_bind.mpr ⟨trivial, fun stdout _ => ?_⟩
    refine (warningLines_lined anyAsked_unmuted ⟨rfl, .refl _⟩).bind fun h stderr hl => ?_
    refine (outputLine_lined anyAsked_unmuted hl).bind fun h stderr hl => ?_
    exact hl.ends rfl rfl Bool.false_ne_true

theorem runSessionShow_ends {sessionId : String} :
    (runSessionShow sessionId).Meets anyAsked (Ends (.sessionShow sessionId)) [] := by
  refine Program.meets_request_bind.mpr ⟨trivial, fun shown _ => ?_⟩
  cases shown with
  | error e => exact failed_ends rfl rfl Bool.false_ne_true Bool.false_ne_true
  | ok shown =>
    refine Program.meets_request_bind.mpr ⟨trivial, fun stdout _ => ?_⟩
    refine (fragmentLine_lined anyAsked_unmuted ⟨rfl, .refl _⟩).bind fun h stderr hl => ?_
    refine (outputLine_lined anyAsked_unmuted hl).bind fun h stderr hl => ?_
    exact hl.ends rfl rfl Bool.false_ne_true

/-- Lines after what could not be done. -/
theorem Lined.fails {stdout stderr : Except ErrorKind Unit} (hl : Lined h h' stderr) (hout : stdoutResult h = stdout)
    (hperformed : ¬Performed command h) (hrefused : ¬Refused command h) :
    Ends command h' { status := failure, stdout, stderr } where
  stdout := by rw [hl.2.stdout, hout]
  stderr := hl.1
  performed hs := absurd hs failure_ne
  succeeds hp := absurd (hl.2.performed.mp hp) hperformed
  refused := ⟨fun hs => absurd hs failure_ne_two, fun hr => absurd (hl.2.refused.mp hr) hrefused⟩
  status := .inr (.inl rfl)

section
variable {prompt sessionId text : String}

theorem answered_ends : (asking (answered sessionId text)).Meets anyAsked (Ends (.askOpenAiCodex prompt))
    [⟨.ask (.start prompt), .ok sessionId⟩, ⟨.ask (.askOpenAiCodex prompt), .ok text⟩] := by
  refine Program.meets_lift_request_bind.mpr ⟨trivial, fun append _ => ?_⟩
  refine Program.meets_lift_request_bind.mpr ⟨trivial, fun stdout _ => ?_⟩
  refine Program.meets_lift_bind (outputErrorLine_lined anyAsked_unmuted ⟨rfl, .refl _⟩) fun h stderr hl => ?_
  refine Program.meets_lift_bind (appendErrorLine_lined anyAsked_unmuted hl) fun h stderr hl => ?_
  refine Program.meets_lift_bind (errorLine_lined anyAsked_unmuted hl) fun h stderr hl => ?_
  cases append with
  | ok _ => exact hl.ends rfl rfl Bool.false_ne_true
  | error _ => exact hl.fails rfl Bool.false_ne_true Bool.false_ne_true

theorem notAnswered_ends {error : ModelError} {hne : error ≠ .invalidPrompt} :
    (asking (notAnswered sessionId error hne)).Meets anyAsked (Ends (.askOpenAiCodex prompt))
      [⟨.ask (.start prompt), .ok sessionId⟩, ⟨.ask (.askOpenAiCodex prompt), .error error⟩] := by
  refine Program.meets_lift_request_bind.mpr ⟨trivial, fun append _ => ?_⟩
  refine Program.meets_lift_request_bind.mpr ⟨trivial, fun stderr _ => ?_⟩
  refine Program.meets_lift_bind (appendErrorLine_lined anyAsked_unmuted ⟨rfl, (Wrote.refl _).snoc _ stderr⟩) fun h stderr hl => ?_
  refine Program.meets_lift_bind (errorLine_lined anyAsked_unmuted hl) fun h stderr hl => ?_
  exact hl.fails rfl Bool.false_ne_true Bool.false_ne_true

theorem rolledBack_ends {error : ModelError} : (asking rolledBack).Meets anyAsked (Ends (.askOpenAiCodex prompt))
    [⟨.ask (.start prompt), .ok sessionId⟩, ⟨.ask (.askOpenAiCodex prompt), .error error⟩] := by
  refine Program.meets_lift_request_bind.mpr ⟨trivial, fun rolled _ => ?_⟩
  cases rolled with
  | ok _ =>
    refine Program.meets_lift_request_bind.mpr ⟨trivial, fun stderr _ => ?_⟩
    exact ⟨rfl, rfl, fun hs => absurd hs.symm success_ne_two, fun hp => absurd hp Bool.false_ne_true,
      ⟨fun _ => rfl, fun _ => rfl⟩, .inr (.inr rfl)⟩
  | error _ =>
    suffices h : (failed rollbackErrorText).Meets anyAsked (Ends (.askOpenAiCodex prompt)) _ from h
    exact failed_ends rfl rfl Bool.false_ne_true Bool.false_ne_true

theorem runAsk_ends : (asking (runAsk prompt)).Meets anyAsked (Ends (.askOpenAiCodex prompt)) [] := by
  refine Program.meets_lift_request_bind.mpr ⟨trivial, fun started _ => ?_⟩
  cases started with
  | error _ =>
    suffices h : (failed createErrorText).Meets anyAsked (Ends (.askOpenAiCodex prompt)) _ from h
    exact failed_ends rfl rfl Bool.false_ne_true Bool.false_ne_true
  | ok sessionId =>
    refine Program.meets_lift_request_bind.mpr ⟨trivial, fun answer _ => ?_⟩
    cases answer with
    | ok text => exact answered_ends
    | error error =>
      dsimp only
      split
      · exact rolledBack_ends
      · exact notAnswered_ends

end

end

/-! ## The login -/

/-- A record that was stored. -/
def isStored : Event LoginAnswer → Bool
  | ⟨.replace _, .ok _⟩ => true
  | _ => false

theorem isStored_any {S : SerdeJson} {h : LoginHistory} {result : Except LoginError ConnectedAccount}
    (hends : LoginEnds S h result) : h.any isStored = result.isOk := by
  cases result with
  | ok account =>
    obtain ⟨_, record, -, hmem, -⟩ := hends
    exact List.any_eq_true.mpr ⟨_, hmem, rfl⟩
  | error _ =>
    refine List.any_eq_false.mpr fun e he => ?_
    obtain ⟨r, a⟩ := e
    cases r with
    | replace record =>
      cases a with
      | ok _ => exact absurd he (hends record)
      | error _ => exact Bool.false_ne_true
    | _ => exact Bool.false_ne_true

/-- How a login's exchanges, the application's and the state between them relate. -/
structure Reported (h : LoginHistory) (h' : AppHistory) (outputError : Except ErrorKind Unit) : Prop where
  stdout : stdoutResult h' = .ok ()
  stderr : outputError = stderrResult h'
  stored : h'.any (performs .loginOpenAiCodex) = h.any isStored
  kept : h'.any rollsBack = false

theorem reporting_reported {S : SerdeJson} {config : LoginConfig} {secrets : AuthSecrets} {h : LoginHistory}
    {h' : AppHistory} {outputError : Except ErrorKind Unit} {r : LoginRequest} (hI : Reported h h' outputError) :
    (reporting outputError r).Meets anyAsked
      (fun h'' x => (Contract.free (reportingGuar S config secrets)).rely h r x.2 ∧ Reported (h ++ [⟨r, x.2⟩]) h'' x.1) h' := by
  -- Every exchange but a report is the application's, which writes nothing.
  have hother : ∀ (r : LoginRequest) (a : Answer (.login r)),
      performs .loginOpenAiCodex ⟨.login r, a⟩ = isStored ⟨r, a⟩ →
        Reported (h ++ [⟨r, a⟩]) (h' ++ [⟨.login r, a⟩]) outputError := by
    intro r a hstored
    refine ⟨by simp [noteStdout, hI.stdout], by simpa [noteStderr] using hI.stderr, ?_, by simp [rollsBack, hI.kept]⟩
    simp [hI.stored, hstored]
  cases r with
  | report progress =>
    have hsilent : (h ++ [(⟨.report progress, ()⟩ : Event LoginAnswer)]).any isStored = h.any isStored := by
      simp [isStored]
    cases outputError with
    | error e => exact ⟨trivial, hI.stdout, hI.stderr, hI.stored.trans hsilent.symm, hI.kept⟩
    | ok u =>
      refine ⟨trivial, fun result _ => ⟨trivial, ?_, ?_, ?_, ?_⟩⟩
      · simp [noteStdout, hI.stdout]
      · rw [stderrResult_snoc, ← hI.stderr]
        rfl
      · simp [hsilent, hI.stored, performs]
      · simp [rollsBack, hI.kept]
  | replace record => exact ⟨trivial, fun stored _ => ⟨trivial, hother _ stored (by cases stored <;> rfl)⟩⟩
  | _ => exact ⟨trivial, fun a _ => ⟨trivial, hother _ a rfl⟩⟩

section
variable {S : SerdeJson} {config : LoginConfig} {secrets : AuthSecrets} {macos : Bool}

theorem loggedIn_ends {h : LoginHistory} {h' : AppHistory}
    {x : Except ErrorKind Unit × Except LoginError ConnectedAccount} (hI : Reported h h' x.1) (hends : LoginEnds S h x.2) :
    (loggedIn x).Meets anyAsked (Ends .loginOpenAiCodex) h' := by
  have hperformed : Performed .loginOpenAiCodex h' ↔ x.2.isOk = true := by
    rw [← isStored_any hends, ← hI.stored]
    rfl
  have hrefused : ¬Refused .loginOpenAiCodex h' := ne_true_of_eq_false hI.kept
  obtain ⟨outputError, result⟩ := x
  cases outputError with
  | error e =>
    cases result with
    | ok account =>
      exact ⟨hI.stdout.symm, hI.stderr, fun _ => hperformed.mpr rfl, fun _ => .inl rfl,
        ⟨fun hs => absurd hs success_ne_two, fun hr => absurd hr hrefused⟩, .inl rfl⟩
    | error _ =>
      exact ⟨hI.stdout.symm, hI.stderr, fun hs => absurd hs failure_ne, fun hp => absurd (hperformed.mp hp) Bool.false_ne_true,
        ⟨fun hs => absurd hs failure_ne_two, fun hr => absurd hr hrefused⟩, .inr (.inl rfl)⟩
  | ok u =>
    cases result with
    | error e => exact failed_ends hI.stdout hI.stderr.symm (fun hp => absurd (hperformed.mp hp) Bool.false_ne_true) hrefused
    | ok account =>
      refine done_ends hI.stdout hI.stderr.symm (fun text a => ?_) fun text a => ?_
      · have hp : h'.any (performs .loginOpenAiCodex) = true := hperformed.mpr rfl
        simp [Performed, hp]
      · have hr : h'.any rollsBack = false := hI.kept
        simp [Refused, hr, rollsBack]

theorem runLogin_ends : (runLogin (login S macos config secrets)).Meets anyAsked (Ends .loginOpenAiCodex) [] := by
  have hI : Reported [] [] (.ok ()) := ⟨rfl, rfl, rfl, rfl⟩
  refine (Program.Meets.interpret (fun _ _ _ _ hI _ => reporting_reported hI) login_meets hI).bind fun h' x hx => ?_
  obtain ⟨h, hI, hends⟩ := hx
  exact loggedIn_ends hI hends

end

/-! ## The application -/

theorem notice_ends {command : Command} {text : String} (hperformed : ∀ h, Performed command h)
    (hrefused : ∀ a, ¬Refused command [⟨.ask (.stdout text), a⟩]) :
    (notice text).Meets anyAsked (Ends command) [] :=
  ⟨trivial, fun a _ => ⟨rfl, rfl, fun _ => hperformed _, fun _ => .inl rfl,
    ⟨fun hs => absurd hs success_ne_two, fun hr => absurd hr (hrefused a)⟩, .inl rfl⟩⟩

theorem refused_ends {command : Command} {text : String} (hrefused : ∀ h, Refused command h)
    (hperformed : ∀ h, ¬Performed command h) : (refused text).Meets anyAsked (Ends command) [] :=
  ⟨trivial, fun _ _ => ⟨rfl, rfl, fun hs => absurd hs.symm success_ne_two, fun hp => absurd hp (hperformed _),
    ⟨fun _ => hrefused _, fun _ => rfl⟩, .inr (.inr rfl)⟩⟩

section
variable {tables : EscapeTables} {S : SerdeJson} {config : LoginConfig} {secrets : AuthSecrets} {macos : Bool}

theorem runCommand_ends (command : Command) :
    (runCommand tables (login S macos config secrets) command).Meets anyAsked (Ends command) [] := by
  cases command with
  | askOpenAiCodex prompt => exact runAsk_ends
  | sessionList => exact runSessionList_ends
  | sessionShow sessionId => exact runSessionShow_ends
  | loginOpenAiCodex => exact runLogin_ends
  | logoutOpenAiCodex => exact runLogout_ends
  | statusOpenAiCodex => exact runStatus_ends
  | modelTestOpenAiCodex => exact runModelTest_ends
  | invalidPrompt => exact refused_ends (fun _ => trivial) fun _ => id
  | usageError argument usage => exact refused_ends (fun _ => trivial) fun _ => id
  | _ => exact notice_ends (fun _ => trivial) fun _ => Bool.false_ne_true

/-- **The exit status.** Whatever the actions answer and whichever writes
fail, a run exits with zero exactly when it performed what its command line
asks for and no first failed write on a stream is other than a broken pipe,
with two exactly when the line was refused or its prompt was, with its session
rolled back, and else with one. -/
theorem exit_status {arguments : List OsString} {tr : AppHistory} {c : Completion}
    (hf : (runApplication tables (login S macos config secrets) arguments).Follows tr (.ret c)) :
    (complete c = success ↔ Performed (parseCommand arguments) tr ∧ stdoutResult tr ≠ .error .other ∧
      stderrResult tr ≠ .error .other) ∧
    (complete c = 2 ↔ Refused (parseCommand arguments) tr) ∧
    (complete c = success ∨ complete c = failure ∨ complete c = 2) := by
  have hends := Program.meets_ret.mp ((runCommand_ends (parseCommand arguments)).follows_free hf)
  have hfailed : c.failedOutput = true ↔ stdoutResult tr = .error .other ∨ stderrResult tr = .error .other := by
    simp [Completion.failedOutput, hends.stdout, hends.stderr]
  rw [← hends.refused]
  unfold complete
  split
  next h =>
    obtain ⟨hout, hstatus⟩ := Bool.and_eq_true .. ▸ h
    rcases hfailed.mp hout with hout | herr
    · exact ⟨⟨fun hs => absurd hs failure_ne, fun hp => absurd hout hp.2.1⟩, by rw [eq_of_beq hstatus]; decide, .inr (.inl rfl)⟩
    · exact ⟨⟨fun hs => absurd hs failure_ne, fun hp => absurd herr hp.2.2⟩, by rw [eq_of_beq hstatus]; decide, .inr (.inl rfl)⟩
  next h =>
    refine ⟨⟨fun hs => ⟨hends.performed hs, ?_, ?_⟩, fun hp => ?_⟩, Iff.rfl, hends.status⟩
    · exact fun hout => h (by simp [hfailed.mpr (.inl hout), hs])
    · exact fun herr => h (by simp [hfailed.mpr (.inr herr), hs])
    · exact (hends.succeeds hp.1).resolve_right fun hout => hp.2.1 (hends.stdout ▸ hout)

end

theorem graphic_uncontrolled {character : Char} (h : (0x20 ≤ character.toNat && character.toNat < 0x7f) = true) :
    isControl character = false ∧ isBidiControl character = false := by
  have hascii : 0x20 ≤ character.toNat ∧ character.toNat < 0x7f := by simpa using h
  constructor <;> simp [isControl, isBidiControl] <;> omega

/-- Only graphic characters of ASCII are printable. -/
def asciiTables : EscapeTables where
  isPrintable character := 0x20 ≤ character.toNat && character.toNat < 0x7f
  isGraphemeExtended _ := false
  printable _ := graphic_uncontrolled

/-- A listing that cannot be written. -/
theorem exit_status_sample :
    complete { status := success, stdout := .error .other, stderr := .ok () } ≠ success := by
  have hf : (runApplication asciiTables (login serdeJson true .production sampleSecrets) [utf8 "session", utf8 "list"]).Follows
      [⟨.list, .ok []⟩, ⟨.ask (.stdout (renderSessionList [])), .error .other⟩,
        ⟨.ask (.stderr "error: unable to write session list\n"), .ok ()⟩]
      (.ret { status := success, stdout := .error .other, stderr := .ok () }) :=
    .cons (.cons (.cons .nil))
  exact fun hs => ((exit_status hf).1.mp hs).2.1 rfl

end AgentHarness.Cli
