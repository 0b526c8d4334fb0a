/-
What is written on the two streams, whatever the command line, the actions'
answers and the writes come to. Of any run of a process every text is inert,
but for the line that names the account of a login: an email has no control
in it, and may have a bidi control (`output_safe`). The session log answers
what its operations may return, whatever the file system answers them, so it
does not matter what other processes do to its files meanwhile.
-/
import AgentHarness.Cli.Sessions
import AgentHarness.Cli.Shown
import AgentHarness.SessionLog.Named

namespace AgentHarness.Cli

open Text Interact Model Auth
open SessionLog (Store validId ListError ShowError ShowResult SessionSummary Step sampleSession)

/-! ## Lines -/

/-- Texts of plain characters, around one that is inert. -/
theorem inert_between {before text after : String} (hbefore : before.toList.all isPlain = true) (htext : Inert text.toList)
    (hafter : after.toList.all isPlain = true) : Inert (before ++ text ++ after).toList := by
  rw [String.toList_append, String.toList_append, inert_append, inert_append]
  exact ⟨⟨inert_plain hbefore, htext⟩, inert_plain hafter⟩

theorem inert_line {text : String} (h : Inert text.toList) : Inert (text ++ "\n").toList := by
  rw [String.toList_append, inert_append]
  exact ⟨h, inert_plain (by decide)⟩

theorem inert_error {text : String} (h : Inert text.toList) : Inert ("error: " ++ text ++ "\n").toList :=
  inert_between (by decide) h (by decide)

/-! ## Texts of its own -/

/-- The texts of errors are plain. -/
theorem plain_errors : (∀ error, (modelErrorText error).toList.all isPlain = true) ∧
    (∀ error, (loginErrorText error).toList.all isPlain = true) ∧ (∀ error, (logoutErrorText error).toList.all isPlain = true) ∧
    (∀ error, (credentialReadErrorText error).toList.all isPlain = true) ∧
    (∀ error, (listErrorText error).toList.all isPlain = true) ∧ ∀ error, (showErrorText error).toList.all isPlain = true := by
  refine ⟨?_, ?_, ?_, ?_, ?_, ?_⟩ <;> intro error <;> cases error <;> decide +kernel

/-- So are the other texts of its own, and the usages. -/
theorem plain_texts : ∀ text ∈ [rootUsage, authUsage, loginUsage, logoutUsage, statusUsage, modelUsage, modelTestUsage,
    askUsage, sessionUsage, sessionListUsage, sessionShowUsage, versionText, promptErrorText, createErrorText,
    appendErrorText, rollbackErrorText, trailingFragmentWarning, "error: unable to write model output",
    "error: unable to write session list", "error: unable to write session output", "OpenAI Codex is connected.",
    "OpenAI Codex is disconnected.", progressText .openingBrowser, progressText .browserLaunchFailed],
    text.toList.all isPlain = true := by
  decide +kernel

section
variable {text : String}

theorem inert_modelErrorText (error : ModelError) : Inert (modelErrorText error).toList := inert_plain (plain_errors.1 error)

theorem inert_loginErrorText (error : LoginError) : Inert (loginErrorText error).toList := inert_plain (plain_errors.2.1 error)

theorem inert_logoutErrorText (error : LogoutError) : Inert (logoutErrorText error).toList :=
  inert_plain (plain_errors.2.2.1 error)

theorem inert_credentialReadErrorText (error : CredentialReadError) : Inert (credentialReadErrorText error).toList :=
  inert_plain (plain_errors.2.2.2.1 error)

theorem inert_listErrorText (error : ListError) : Inert (listErrorText error).toList :=
  inert_plain (plain_errors.2.2.2.2.1 error)

theorem inert_showErrorText (error : ShowError) : Inert (showErrorText error).toList :=
  inert_plain (plain_errors.2.2.2.2.2 error)

theorem inert_append_plain {before after : String} (hbefore : before.toList.all isPlain = true) (hafter : Inert after.toList) :
    Inert (before ++ after).toList := by
  rw [String.toList_append, inert_append]
  exact ⟨inert_plain hbefore, hafter⟩

theorem inert_trailingFragment : Inert trailingFragmentWarning.toList := inert_plain (plain_texts _ (by simp))

end

/-! ## The account of a login -/

/-- A claim that is shown has no control in it. -/
theorem safeClaim_uncontrolled {value : Option Json} {maximumChars : Nat} {claim : String}
    (h : safeClaim value maximumChars = some claim) : ∀ c ∈ claim.toList, isControl c = false := by
  simp only [safeClaim, Option.bind_eq_bind, Option.bind_eq_some_iff] at h
  obtain ⟨_, -, _, -, h⟩ := h
  split at h
  · cases h
  · rename_i hsafe
    cases h
    intro c hc
    by_contra hcontrol
    exact hsafe (by simp [List.any_eq_true.mpr ⟨c, hc, by simpa using hcontrol⟩])

/-- The email of an account has no control in it. -/
def Uncontrolled (account : ConnectedAccount) : Prop := ∀ email ∈ account.email, ∀ c ∈ email.toList, isControl c = false

theorem validate_uncontrolled {S : SerdeJson} {response : TokenResponse} {now : UInt64} {r : CredentialRecord}
    (h : CredentialRecord.validate S response now = .ok r) : ∀ email ∈ r.email, ∀ c ∈ email.toList, isControl c = false := by
  simp only [CredentialRecord.validate, Except.bind_ok_iff] at h
  obtain ⟨_, -, idClaims, -, _, -, _, -, _, -, h⟩ := h
  cases h
  exact fun email hemail => safeClaim_uncontrolled hemail

/-! ## The URL of a login -/

theorem utf8_text_visible (url : Url) : ∀ b ∈ utf8 url.text, isVisible b = true := by
  have hmark : ∀ b ∈ utf8 "?", isVisible b = true := List.all_iff_forall_prop.mp (by decide)
  have hhash : ∀ b ∈ utf8 "#", isVisible b = true := List.all_iff_forall_prop.mp (by decide)
  rw [Url.text, utf8_append, utf8_append]
  refine List.forall_mem_append.mpr ⟨List.forall_mem_append.mpr ⟨fun b hb => (url.base_visible b hb).1, ?_⟩, ?_⟩
  · cases hq : url.query with
    | none => exact fun b hb => absurd hb List.not_mem_nil
    | some q =>
      show ∀ b ∈ utf8 ("?" ++ q), isVisible b = true
      rw [utf8_append]
      exact List.forall_mem_append.mpr ⟨hmark, fun b hb => (url.query_visible q hq b hb).1⟩
  · cases hf : url.fragment with
    | none => exact fun b hb => absurd hb List.not_mem_nil
    | some f =>
      show ∀ b ∈ utf8 ("#" ++ f), isVisible b = true
      rw [utf8_append]
      exact List.forall_mem_append.mpr ⟨hhash, url.fragment_visible f hf⟩

theorem inert_url (url : Url) : Inert url.text.toList := by
  refine inert_of_isPlain fun c hc => ?_
  obtain ⟨b, hb, heq⟩ := mem_toList_of_ascii (fun b hb => ascii_of_isVisible (utf8_text_visible url b hb)) hc
  have hvisible := utf8_text_visible url b hb
  simp only [isVisible, Bool.and_eq_true, decide_eq_true_eq, UInt8.le_iff_toNat_le] at hvisible
  have hlow : ' ' ≤ c := UInt32.le_iff_toNat_le.mpr (show 0x20 ≤ c.toNat by have := hvisible.1; simp at this; omega)
  have hhigh : c ≤ '~' := UInt32.le_iff_toNat_le.mpr (show c.toNat ≤ 0x7E by have := hvisible.2; simp at this; omega)
  simp [isPlain, hlow, hhigh]

/-! ## The contract -/

/-- What a command may write: what is inert, or the account that a login has connected. -/
def Safe (command : Command) (text : String) : Prop :=
  Inert text.toList ∨ command = .loginOpenAiCodex ∧ ∃ account, Uncontrolled account ∧ text = connectedText account ++ "\n"

/-- The ids that an action returns can be ones. -/
def ValidIds : Event Answer → Prop
  | ⟨.ask (.start _), result⟩ => ∀ id, result = .ok id → validId id = true
  | ⟨.list, result⟩ => ∀ entries, result = .ok entries → SessionLog.AllNamed entries
  | ⟨.inspect _, result⟩ => ∀ shown, result = .ok shown → validId shown.projection.sessionId = true
  | _ => True

def writing (command : Command) : Contract Request Answer where
  rely := fun _ r a => ValidIds ⟨r, a⟩
  guar := fun _ r =>
    match r with
    | .ask (.stdout text) | .ask (.stderr text) => Safe command text
    | _ => True

/-- All that is written is safe, and what is returned is not said. -/
abbrev Writes {α : Type} (command : Command) (h : AppHistory) (p : AppProgram α) : Prop :=
  p.Meets (writing command) (fun _ _ => True) h

section
variable {command : Command} {h : AppHistory} {result : Except ErrorKind Unit} {text : String}

theorem errorLine_writes (htext : Inert text.toList) : Writes command h (asking (errorLine result text)) :=
  ⟨.inl (inert_line htext), fun _ _ => trivial⟩

theorem failed_writes (htext : Inert text.toList) : Writes command h (failed text) :=
  ⟨.inl (inert_error htext), fun _ _ => trivial⟩

theorem done_writes (htext : Inert text.toList) : Writes command h (done text) :=
  ⟨.inl (inert_line htext), fun _ _ => trivial⟩

theorem notice_writes (htext : Inert text.toList) : Writes command h (notice text) := ⟨.inl htext, fun _ _ => trivial⟩

theorem refused_writes (htext : Inert text.toList) : Writes command h (refused text) := ⟨.inl htext, fun _ _ => trivial⟩

theorem outputLine_writes {stdout : Except ErrorKind Unit} (htext : Inert text.toList) :
    Writes command h (asking (outputLine stdout result text)) := by
  rcases stdout with (_ | _) | _
  · trivial
  · exact errorLine_writes htext
  · trivial

theorem outputErrorLine_writes {stdout : Except ErrorKind Unit} : Writes command h (asking (outputErrorLine stdout)) := by
  rcases stdout with (_ | _) | _
  · trivial
  · exact errorLine_writes (inert_plain (plain_texts _ (by simp)))
  · trivial

theorem appendErrorLine_writes {append : Except SessionLog.AppendError Unit} :
    Writes command h (asking (appendErrorLine append result)) := by
  cases append with
  | ok _ => trivial
  | error _ => exact errorLine_writes (inert_append_plain (by decide) (inert_plain (plain_texts _ (by simp))))

theorem sessionLine_writes {id : String} (hid : validId id = true) :
    Writes command h (asking (errorLine result ("Session: " ++ id))) := by
  exact errorLine_writes (inert_append_plain (by decide) (inert_validId hid))

theorem warningLines_writes {entries : List SessionSummary} (h : ∀ entry ∈ entries, validId entry.sessionId = true)
    {h : AppHistory} : Writes command h (asking (warningLines result entries)) := by
  induction entries generalizing h result with
  | nil => trivial
  | cons entry entries ih =>
    rename_i hvalid
    rw [List.forall_mem_cons] at hvalid
    refine Program.meets_lift_bind (errorLine_writes ?_) fun h stderr _ => ih hvalid.2
    rw [String.toList_append, inert_append]
    exact ⟨inert_between (by decide) (inert_validId hvalid.1) (by decide), inert_trailingFragment⟩

theorem fragmentLine_writes {shown : ShowResult} : Writes command h (asking (fragmentLine shown)) := by
  unfold fragmentLine
  split
  · exact errorLine_writes (inert_append_plain (by decide) inert_trailingFragment)
  · trivial

end

/-! ## The commands -/

section
variable {command : Command}

theorem inert_promptErrorText : Inert promptErrorText.toList := inert_plain (plain_texts _ (by simp))

theorem runAsk_writes {prompt : String} {h : AppHistory} : Writes command h (asking (runAsk prompt)) := by
  refine Program.meets_lift_request_bind.mpr ⟨trivial, fun started hstarted => ?_⟩
  cases started with
  | error _ => exact ⟨.inl (inert_error (inert_plain (plain_texts _ (by simp)))), fun _ _ => trivial⟩
  | ok sessionId =>
    have hid : validId sessionId = true := hstarted sessionId rfl
    refine Program.meets_lift_request_bind.mpr ⟨trivial, fun answer _ => ?_⟩
    cases answer with
    | ok text =>
      refine Program.meets_lift_request_bind.mpr ⟨trivial, fun append _ => ?_⟩
      refine Program.meets_lift_request_bind.mpr ⟨.inl (renderModelText_inert text), fun stdout _ => ?_⟩
      refine Program.meets_lift_bind outputErrorLine_writes fun h stderr _ => ?_
      refine Program.meets_lift_bind appendErrorLine_writes fun h stderr _ => ?_
      exact Program.meets_lift_bind (sessionLine_writes hid) fun h stderr _ => trivial
    | error error =>
      dsimp only
      split
      · refine Program.meets_lift_request_bind.mpr ⟨trivial, fun rolled _ => ?_⟩
        cases rolled with
        | ok _ => exact ⟨.inl inert_promptErrorText, fun _ _ => trivial⟩
        | error _ => exact ⟨.inl (inert_error (inert_plain (plain_texts _ (by simp)))), fun _ _ => trivial⟩
      · refine Program.meets_lift_request_bind.mpr ⟨trivial, fun append _ => ?_⟩
        refine Program.meets_lift_request_bind.mpr ⟨.inl (inert_error (inert_modelErrorText error)), fun stderr _ => ?_⟩
        refine Program.meets_lift_bind appendErrorLine_writes fun h stderr _ => ?_
        exact Program.meets_lift_bind (sessionLine_writes hid) fun h stderr _ => trivial

theorem runSessionList_writes {h : AppHistory} : Writes command h runSessionList := by
  refine Program.meets_request_bind.mpr ⟨trivial, fun listed hlisted => ?_⟩
  cases listed with
  | error error => exact failed_writes (inert_listErrorText error)
  | ok entries =>
    have hids : ∀ entry ∈ entries, validId entry.sessionId = true := hlisted entries rfl
    refine Program.meets_request_bind.mpr ⟨.inl (renderSessionList_inert hids), fun stdout _ => ?_⟩
    have hwarned : ∀ entry ∈ entries.filter SessionSummary.trailingFragment, validId entry.sessionId = true :=
      fun entry hentry => hids entry (List.mem_of_mem_filter hentry)
    refine (warningLines_writes hwarned).bind fun h stderr _ => ?_
    exact (outputLine_writes (inert_plain (plain_texts _ (by simp)))).bind fun h stderr _ => trivial

theorem runSessionShow_writes {sessionId : String} {h : AppHistory} : Writes command h (runSessionShow sessionId) := by
  refine Program.meets_request_bind.mpr ⟨trivial, fun shown hshown => ?_⟩
  cases shown with
  | error error => exact failed_writes (inert_showErrorText error)
  | ok shown =>
    refine Program.meets_request_bind.mpr ⟨.inl (renderSession_inert (hshown shown rfl)), fun stdout _ => ?_⟩
    refine fragmentLine_writes.bind fun h stderr _ => ?_
    exact (outputLine_writes (inert_plain (plain_texts _ (by simp)))).bind fun h stderr _ => trivial

theorem runModelTest_writes {h : AppHistory} : Writes command h runModelTest := by
  refine Program.meets_request_bind.mpr ⟨trivial, fun tested _ => ?_⟩
  cases tested with
  | error error => exact failed_writes (inert_modelErrorText error)
  | ok text =>
    refine Program.meets_request_bind.mpr ⟨.inl (renderModelText_inert text), fun stdout _ => ?_⟩
    rcases stdout with (_ | _) | _
    · trivial
    · exact ⟨.inl (inert_line (inert_plain (plain_texts "error: unable to write model output" (by simp)))), fun _ _ => trivial⟩
    · trivial

theorem runStatus_writes {h : AppHistory} : Writes command h runStatus := by
  refine Program.meets_request_bind.mpr ⟨trivial, fun connected _ => ?_⟩
  cases connected with
  | ok _ => exact done_writes (inert_plain (plain_texts _ (by simp)))
  | error error => exact failed_writes (inert_credentialReadErrorText error)

theorem runLogout_writes {h : AppHistory} : Writes command h runLogout := by
  refine Program.meets_request_bind.mpr ⟨trivial, fun deleted _ => ?_⟩
  cases deleted with
  | ok _ => exact done_writes (inert_plain (plain_texts _ (by simp)))
  | error error => exact failed_writes (inert_logoutErrorText error)

end

/-! ## The login -/

section
variable {S : SerdeJson} {config : LoginConfig} {secrets : AuthSecrets} {macos : Bool}

theorem reporting_writes {command : Command} {h : LoginHistory} {h' : AppHistory} {outputError : Except ErrorKind Unit}
    {r : LoginRequest} (hguar : reportingGuar S config secrets h r) :
    (reporting outputError r).Meets (writing command)
      (fun _ x => (Contract.free (reportingGuar S config secrets)).rely h r x.2 ∧ True) h' := by
  cases r with
  | report progress =>
    cases outputError with
    | error e => exact ⟨trivial, trivial⟩
    | ok u =>
      refine ⟨.inl ?_, fun _ _ => ⟨trivial, trivial⟩⟩
      cases progress with
      | openingBrowser | browserLaunchFailed => exact inert_plain (plain_texts _ (by simp))
      | authorizationUrl url =>
        obtain ⟨port, -, rfl⟩ := hguar
        exact inert_between (by decide) (inert_url _) (by decide)
  | _ => exact ⟨trivial, fun _ _ => ⟨trivial, trivial⟩⟩

theorem loggedIn_writes {h : LoginHistory} {h' : AppHistory}
    {x : Except ErrorKind Unit × Except LoginError ConnectedAccount} (hends : LoginEnds S h x.2) :
    Writes .loginOpenAiCodex h' (loggedIn x) := by
  obtain ⟨outputError, result⟩ := x
  cases outputError with
  | error e => trivial
  | ok u =>
    cases result with
    | error e => exact failed_writes (inert_loginErrorText e)
    | ok account =>
      obtain ⟨credential, record, ⟨_, _, _, response, now, -, -, hcredential, -⟩, -, rfl⟩ := hends
      refine ⟨.inr ⟨rfl, _, ?_, rfl⟩, fun _ _ => trivial⟩
      exact validate_uncontrolled hcredential

theorem runLogin_writes : Writes .loginOpenAiCodex [] (runLogin (login S macos config secrets)) := by
  refine (Program.Meets.interpret (I := fun _ _ _ => True) (fun _ _ _ _ _ hguar => reporting_writes hguar) login_meets
    trivial).bind fun h' x hx => ?_
  obtain ⟨h, -, hends⟩ := hx
  exact loggedIn_writes hends

/-! ## The application -/

/-- The usage that a refused line is shown is plain. -/
def PlainUsage : Command → Prop
  | .usageError _ usage => usage.toList.all isPlain = true
  | _ => True

section
variable {arguments : List OsString}

theorem helpOrTrailing_plain {trailing : Option OsString} {help : Command} {usage : String} (hhelp : PlainUsage help)
    (husage : usage.toList.all isPlain = true) : PlainUsage (helpOrTrailing trailing help usage) := by
  cases trailing with
  | none => exact hhelp
  | some trailing => exact husage

theorem parseAuthProvider_plain {help success : Command} {usage : String} (hhelp : PlainUsage help)
    (hsuccess : PlainUsage success) (husage : usage.toList.all isPlain = true) :
    PlainUsage (parseAuthProvider arguments help usage success) := by
  unfold parseAuthProvider
  split
  · exact hhelp
  · split
    · exact hhelp
    · split
      · exact husage
      · split
        · exact husage
        · exact hsuccess

theorem parseAuth_plain : PlainUsage (parseAuth arguments) := by
  unfold parseAuth
  split
  · trivial
  · split
    · trivial
    · split
      · exact parseAuthProvider_plain trivial trivial (plain_texts _ (by simp))
      · split
        · exact parseAuthProvider_plain trivial trivial (plain_texts _ (by simp))
        · split
          · exact plain_texts _ (by simp)
          · exact parseAuthProvider_plain trivial trivial (plain_texts _ (by simp))

theorem parseModel_plain : PlainUsage (parseModel arguments) := by
  unfold parseModel
  repeat' split
  all_goals first | exact True.intro | exact plain_texts _ (by simp)

theorem parsePrompt_plain : PlainUsage (parsePrompt arguments) := by
  unfold parsePrompt
  repeat' split
  all_goals first | exact True.intro | exact plain_texts _ (by simp)

theorem parseAsk_plain : PlainUsage (parseAsk arguments) := by
  unfold parseAsk
  repeat' split
  all_goals first | exact True.intro | exact parsePrompt_plain | exact plain_texts _ (by simp)

theorem parseSessionShow_plain : PlainUsage (parseSessionShow arguments) := by
  unfold parseSessionShow
  repeat' split
  all_goals first | exact True.intro | exact helpOrTrailing_plain trivial (plain_texts _ (by simp)) | exact plain_texts _ (by simp)

theorem parseSession_plain : PlainUsage (parseSession arguments) := by
  unfold parseSession
  repeat' split
  all_goals
    first
    | exact True.intro
    | exact parseSessionShow_plain
    | exact helpOrTrailing_plain trivial (plain_texts _ (by simp))
    | exact plain_texts _ (by simp)

theorem parseCommand_plain : PlainUsage (parseCommand arguments) := by
  unfold parseCommand
  repeat' split
  all_goals
    first
    | exact True.intro
    | exact parseAuth_plain
    | exact parseAsk_plain
    | exact parseModel_plain
    | exact parseSession_plain
    | exact plain_texts _ (by simp)

end

variable {tables : EscapeTables}

theorem runCommand_writes {command : Command} (hplain : PlainUsage command) :
    Writes command [] (runCommand tables (login S macos config secrets) command) := by
  cases command with
  | askOpenAiCodex prompt => exact runAsk_writes
  | sessionList => exact runSessionList_writes
  | sessionShow sessionId => exact runSessionShow_writes
  | loginOpenAiCodex => exact runLogin_writes
  | logoutOpenAiCodex => exact runLogout_writes
  | statusOpenAiCodex => exact runStatus_writes
  | modelTestOpenAiCodex => exact runModelTest_writes
  | invalidPrompt => exact refused_writes inert_promptErrorText
  | usageError argument usage => exact refused_writes (usageErrorText_inert argument hplain)
  | version => exact notice_writes (inert_plain (plain_texts _ (by simp)))
  | _ => exact notice_writes (inert_help _ (by simp))

end

/-! ## Runs -/

/-- What an action may be answered by the session log, whatever its files answer. -/
def Given : Event Answer → Prop
  | ⟨.ask (.start prompt), result⟩ => ∃ sources files x, (SessionLog.startFile sources prompt).run.Follows files (.ret x) ∧
      result = x.map fun w => w.writer.sessionId
  | ⟨.list, result⟩ => ∃ files, (SessionLog.listFile SessionLog.listLimits).run.Follows files (.ret result)
  | ⟨.inspect id, result⟩ => ∃ files, (SessionLog.showSession id).run.Follows files (.ret result)
  | _ => True

/-- Ids that the session log answers with can be ones. -/
theorem Given.validIds {e : Event Answer} (h : Given e) : ValidIds e := by
  obtain ⟨r, a⟩ := e
  cases r with
  | ask r =>
    cases r with
    | start prompt =>
      obtain ⟨sources, files, x, hf, rfl⟩ := h
      intro id hid
      cases x with
      | error e => cases hid
      | ok w =>
        cases hid
        exact Program.meets_ret.mp (SessionLog.startFile_named.follows_free hf) w rfl
    | _ => trivial
  | list =>
    obtain ⟨files, hf⟩ := h
    exact Program.meets_ret.mp (SessionLog.listFile_named.follows_free hf)
  | inspect id =>
    obtain ⟨files, hf⟩ := h
    intro shown hshown
    obtain ⟨hid, hvalid⟩ := Program.meets_ret.mp (SessionLog.showSession_named.follows_free hf) shown hshown
    rw [hid]
    exact hvalid
  | _ => trivial

/-- Operations that are whole are answered as any are. -/
theorem Runs.given {ι : Type} [DecidableEq ι] {S : SerdeJson} {fromStr : String → Option Json} {limits : Sse.Limits}
    {platform : Platform} {w w' : Processes ι Request Answer Completion (Store ι)} {tr : List (Happening ι Answer)}
    (hrun : Runs S fromStr limits platform w tr w') {i : ι} {r : Request} {a : Answer r} (hmem : .exchanged i ⟨r, a⟩ ∈ tr) :
    Given ⟨r, a⟩ := by
  obtain ⟨before, after, rfl⟩ := List.append_of_mem hmem
  obtain ⟨m, -, hafter⟩ := hrun.split
  obtain ⟨k, t, -, hp, -⟩ := hafter.head
  have hdone := hp.2
  cases r with
  | ask r =>
    cases r with
    | start prompt =>
      have hstep : Step i m.shared (.started prompt a) t := hdone
      cases hstep with
      | start sources _ _ hr =>
        obtain ⟨files, hf⟩ := hr.follows
        exact ⟨sources, files, _, hf, rfl⟩
    | _ => trivial
  | list =>
    cases hdone with
    | list _ _ hr => exact hr.follows
  | inspect id =>
    cases hdone with
    | inspect _ _ hr => exact hr.follows
  | _ => trivial

/-- **What is written is safe for a terminal.** In any run of a process, up to
any point, whatever the model, the authorization server, the keychain, the
streams and the session log's file system answer: of all that is written, to
standard output and to standard error, only the line that names the account of
a login may have a character that is not inert, and that is no control. -/
theorem output_safe {S : SerdeJson} {tables : EscapeTables} {macos : Bool} {config : LoginConfig} {secrets : AuthSecrets}
    {arguments : List OsString} {tr : AppHistory} {q}
    (hf : (runApplication tables (login S macos config secrets) arguments).Follows tr q) (hgiven : ∀ e ∈ tr, Given e) :
    (∀ text a, ⟨.ask (.stdout text), a⟩ ∈ tr → Safe (parseCommand arguments) text) ∧
      ∀ text a, ⟨.ask (.stderr text), a⟩ ∈ tr → Safe (parseCommand arguments) text := by
  have hmeets : Writes (parseCommand arguments) [] (runApplication tables (login S macos config secrets) arguments) :=
    runCommand_writes parseCommand_plain
  have hguar : ∀ e ∈ tr, (writing (parseCommand arguments)).guar [] e.1 := by
    intro e hmem
    obtain ⟨pre, post, rfl⟩ := List.append_of_mem hmem
    have hpre : ∀ pre' e' post', pre = pre' ++ e' :: post' → ValidIds e' := by
      intro pre' e' post' hpre
      exact (hgiven e' (by simp [hpre])).validIds
    have hallowed := hmeets.guar hf hpre
    exact hallowed
  exact ⟨fun text a hmem => hguar _ hmem, fun text a hmem => hguar _ hmem⟩

/-- The answer of a question is written as one that is safe. -/
theorem output_safe_sample : Safe (.askOpenAiCodex sampleSession.prompt) (renderModelText "é") := by
  obtain ⟨w, hrun, -, -⟩ := sampleAsk_run
  rw [← sample_parse.1]
  exact (output_safe sampleAsk_follows fun e he => Runs.given hrun (List.mem_map_of_mem he)).1 _ (.ok ()) (by simp [sampleAsk])

end AgentHarness.Cli
