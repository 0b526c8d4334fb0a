/-
What a reader makes of one session, from what it may rely on. `look` follows
the reader through the session's file, from its open to the last check of
its identity; as long as it looks, the file stays where it is, and once it
holds the shared lock the file does not change and shows the session.
-/
import AgentHarness.SessionLog.Files

namespace AgentHarness.SessionLog

open Text Except Interact

/-! ## Where a reader is -/

/-- How far a reader has got with the session's file: not at all, open,
locked, its length known, its bytes read. -/
inductive Look where
  | away
  | opened (file : Nat)
  | locked (file : Nat)
  | sized (file len : Nat)
  | readOut (file len : Nat)
  deriving DecidableEq, Repr

def Look.file? : Look → Option Nat
  | .away => none
  | .opened file | .locked file | .sized file _ | .readOut file _ => some file

section
variable (sid : String)

def noteLook (look : Look) : Event FsAnswer → Look
  | ⟨.openRead id, .ok file⟩ => if id = sid then .opened file else look
  | ⟨.tryLockShared file, .ok _⟩ => if look = .opened file then .locked file else look
  | ⟨.tryLockShared _, .error _⟩ => .away
  | ⟨.metadata file, .ok m⟩ => if look = .locked file then .sized file m.len else look
  | ⟨.read file _, .ok _⟩ =>
    match look with
    | .sized f len => if f = file then .readOut f len else look
    | _ => look
  | ⟨.symlinkMetadata (.session id), _⟩ =>
    match look with
    | .readOut _ _ => if id = sid then .away else look
    | _ => look
  | ⟨.close _, _⟩ => .away
  | _ => look

def look (h : FsHistory) : Look := h.foldl (noteLook sid) .away

@[simp] theorem look_snoc (h : FsHistory) (e : Event FsAnswer) : look sid (h ++ [e]) = noteLook sid (look sid h) e := by
  simp [look]

variable {sid}

theorem look_step {h : FsHistory} {l l' : Look} {e : Event FsAnswer} (hl : look sid h = l)
    (he : noteLook sid l e = l') : look sid (h ++ [e]) = l' := by
  rw [look_snoc, hl, he]

end

/-! ## The contract -/

structure Metadata.IsFile (m : Metadata) (file : Nat) : Prop where
  kind : m.kind = .file
  ino : m.ino = file
  nlink : m.nlink = 1
  mode : isPrivate m.mode = true

/-- A file that shows the session with its prompt. -/
def Shows (sid prompt : String) (bytes : Bytes) : Prop :=
  bytes.length ≤ maxSessionBytes ∧ ∃ r, project bytes sid = .ok r ∧ r.projection.prompt = prompt

section
variable (sid prompt : String)

/-- What a reader may rely on of the session's file and the directories. Of
other sessions nothing is relied on. -/
def readerRely (h : FsHistory) : (r : FsRequest) → FsAnswer r → Prop
  | .symlinkMetadata (.directory _), a =>
    a = .error .notFound ∨ ∃ m, a = .ok m ∧ m.kind = .directory ∧ isPrivate m.mode = true
  | .symlinkMetadata (.session id), a => id = sid →
    match (look sid h).file? with
    | some file => ∃ m, a = .ok m ∧ m.IsFile file
    | none => a = .error .notFound ∨ ∃ m, a = .ok m ∧ m.kind = .file
  | .readDir _, a => ∃ names : List Bytes, a = .ok (names.map .ok)
  | .openRead id, a => id = sid → a = .error .notFound ∨ ∃ file, a = .ok file
  | .metadata file, a => (look sid h).file? = some file → ∃ m, a = .ok m ∧ m.IsFile file ∧
    (look sid h = .locked file → m.len ≤ maxSessionBytes) ∧ ∀ len, look sid h = .readOut file len → m.len = len
  | .tryLockShared file, a => look sid h = .opened file → a = .ok () ∨ a = .error .wouldBlock
  | .read file limit, a => ∀ len, look sid h = .sized file len → len ≤ limit →
    ∃ bytes, a = .ok bytes ∧ bytes.length = len ∧ Shows sid prompt bytes
  | _, _ => True

/-- A reader changes nothing but its own lock, and lists only a directory it
has seen. -/
def readerGuar (h : FsHistory) : FsRequest → Prop
  | .symlinkMetadata _ | .openRead _ | .metadata _ | .tryLockShared _ | .read _ _ | .close _ => True
  | .readDir d => ∃ m, ⟨.symlinkMetadata (.directory d), .ok m⟩ ∈ h
  | _ => False

def readerContract : Contract FsRequest FsAnswer where
  rely := readerRely sid prompt
  guar := readerGuar

/-! ## What is to be reported -/

/-- The session is missing, busy, or shown with its prompt. -/
def Reports : Except ShowError ShowResult → Prop
  | .ok r => r.projection.prompt = prompt
  | .error e => e = .missing ∨ e = .busy

/-- A list leaves the session out, or has it busy or as it is to be shown. -/
def Lists : Except ListError (List SessionSummary) → Prop
  | .ok summaries => ∀ summary ∈ summaries, summary.sessionId = sid →
      summary = .unprojectable sid .busy ∨ ∃ r, summary = ShowResult.intoSummary r ∧ r.projection.prompt = prompt
  | .error e => e = .inventoryTooLarge

end

/-! ## Requests about other sessions -/

/-- A request about a file that is open and the path of its session. -/
def Inspecting (file : Nat) (id : String) : FsRequest → Prop
  | .symlinkMetadata (.session id') => id' = id
  | .metadata file' | .tryLockShared file' | .read file' _ => file' = file
  | _ => False

/-- A reader's request that is about no other session file than those that
are open and `id`'s. -/
def About (id : String) : FsRequest → Prop
  | .symlinkMetadata (.session id') | .openRead id' => id' = id
  | .metadata _ | .tryLockShared _ | .read _ _ | .close _ => True
  | _ => False

theorem Inspecting.about {file : Nat} {id : String} {r : FsRequest} (h : Inspecting file id r) : About id r := by
  unfold Inspecting at h
  split at h
  · exact h
  · trivial
  · trivial
  · trivial
  · exact h.elim

section
variable {P : FsRequest → Prop} {file : Nat} {id : String}

theorem identityMatches_asks (hfile : P (.metadata file)) (hpath : P (.symlinkMetadata (.session id))) :
    (identityMatches file id).Asks P fun _ => True := by
  refine ⟨hfile, fun a => ?_⟩
  cases a with
  | error e => trivial
  | ok m => exact ⟨hpath, fun a => by cases a <;> trivial⟩

theorem privateFilePermissions_asks (hfile : P (.metadata file)) : (privateFilePermissions file).Asks P fun _ => True :=
  ⟨hfile, fun a => by cases a <;> trivial⟩

theorem lockedSize_asks (hfile : P (.metadata file)) (hpath : P (.symlinkMetadata (.session id)))
    (hlock : P (.tryLockShared file)) : (lockedSize file id).run.Asks P fun _ => True := by
  refine asks_lift_bind (identityMatches_asks hfile hpath) fun _ => asks_exit_bind fun _ => ?_
  refine asks_lift_bind (privateFilePermissions_asks hfile) fun _ => asks_exit_bind fun _ => ?_
  refine asks_ask_bind hlock fun _ => asks_exit_bind fun _ => ?_
  exact asks_ask_bind hfile fun _ => asks_exit_bind fun _ => asks_exit_bind fun _ => trivial

theorem readShown_asks : (readShown file id).run.Asks (Inspecting file id) fun _ => True := by
  refine asks_ask_bind rfl fun _ => asks_exit_bind fun _ => asks_exit_bind fun _ => ?_
  exact asks_lift_bind (identityMatches_asks rfl rfl) fun _ => asks_exit_bind fun _ => trivial

theorem readListed_asks {size : Nat} : (readListed file id size).run.Asks (Inspecting file id) fun _ => True := by
  refine asks_ask_bind rfl fun _ => asks_exit_bind fun _ => asks_ask_bind rfl fun _ => asks_exit_bind fun _ => ?_
  exact asks_lift_bind (identityMatches_asks rfl rfl) fun _ => asks_exit_bind fun _ => trivial

end

theorem projected_sessionId {id : String} {x : Except ShowError Bytes} {r : ShowResult} (h : projected id x = .ok r) :
    r.projection.sessionId = id := by
  cases x with
  | error e => exact nomatch h
  | ok bytes =>
    cases hp : project bytes id with
    | error e => simp [projected, hp, Except.mapError] at h
    | ok r' =>
      simp only [projected, hp, Except.mapError, Except.ok.injEq] at h
      exact h ▸ project_sessionId hp

/-- Whatever is shown is the session that was asked for. -/
def ShowsOnly (id : String) (x : Except FileInspectionError ShowResult × ReadPolicy) : Prop :=
  ∀ r, x.1 = .ok r → r.projection.sessionId = id

theorem inspectOpened_asks (file : Nat) (id : String) (policy : ReadPolicy) :
    (inspectOpened file id policy).Asks (Inspecting file id) (ShowsOnly id) := by
  refine (lockedSize_asks (P := Inspecting file id) rfl rfl rfl).bind fun x _ => ?_
  cases x with
  | error e => exact fun r hr => nomatch hr
  | ok size =>
    cases policy with
    | showing => exact readShown_asks.bind fun _ _ _ hr => projected_sessionId hr
    | listing budget =>
      cases hc : budget.charge size with
      | error e =>
        simp only [hc]
        exact fun r hr => nomatch hr
      | ok budget =>
        simp only [hc]
        exact readListed_asks.bind fun _ _ _ hr => projected_sessionId hr

theorem inspectFile_asks (id : String) (policy : ReadPolicy) :
    (inspectFile id policy).Asks (About id) (ShowsOnly id) := by
  refine Program.asks_request_bind rfl fun a => ?_
  cases a with
  | error e => exact fun r hr => nomatch hr
  | ok m =>
    by_cases hk : m.kind = .file
    · simp only [hk, ne_eq, not_true_eq_false, if_false]
      refine Program.asks_request_bind rfl fun a => ?_
      cases a with
      | error e => exact fun r hr => nomatch hr
      | ok file =>
        exact ((inspectOpened_asks file id policy).mono fun r => Inspecting.about).bind fun _ hx => ⟨trivial, fun _ => hx⟩
    · simp only [ne_eq, hk, not_false_eq_true, if_true]
      exact fun r hr => nomatch hr

/-! ## Looking at the session's file -/

section
variable {sid prompt : String} {h : FsHistory} {file len : Nat}

/-- Reading another session leaves a reader as far from this one. -/
theorem inspectFile_elsewhere {id : String} (hid : id ≠ sid) (policy : ReadPolicy) (hl : look sid h = .away) :
    (inspectFile id policy).Meets (readerContract sid prompt) (fun h x => look sid h = .away ∧ ShowsOnly id x) h := by
  refine (inspectFile_asks id policy).meets (J := fun h => look sid h = .away) hl ?_ ?_
  · intro h r _ hr
    cases r <;> trivial
  · intro h r a hl hr _
    rw [look_snoc, hl]
    cases r with
    | symlinkMetadata path => cases path <;> rfl
    | openRead id' =>
      cases hr
      cases a <;> simp [noteLook, hid]
    | metadata _ | tryLockShared _ | read _ _ => cases a <;> simp [noteLook]
    | _ => rfl

/-- The file is still the one at the path. -/
theorem identityMatches_true {m path : Metadata} (hm : m.IsFile file) (hp : path.IsFile file) :
    (path.kind == .file && m.kind == .file && m.ino == path.ino && m.nlink == 1 && path.nlink == 1) = true := by
  simp [hm.kind, hm.ino, hm.nlink, hp.kind, hp.ino, hp.nlink]

theorem identityMatches_opened (hl : look sid h = .opened file) :
    (identityMatches file sid).Meets (readerContract sid prompt)
      (fun h b => b = true ∧ look sid h = .opened file) h := by
  refine Program.meets_request_bind.mpr ⟨trivial, fun a ha => ?_⟩
  obtain ⟨m, rfl, hm, -⟩ := ha (by rw [hl]; rfl)
  have hl₁ : look sid (h ++ [⟨.metadata file, .ok m⟩]) = .opened file := look_step hl rfl
  refine Program.meets_request_bind.mpr ⟨trivial, fun a ha => ?_⟩
  have hpath := ha rfl
  rw [hl₁] at hpath
  obtain ⟨path, rfl, hp⟩ := hpath
  exact ⟨identityMatches_true hm hp, look_step hl₁ rfl⟩

theorem identityMatches_readOut (hl : look sid h = .readOut file len) :
    (identityMatches file sid).Meets (readerContract sid prompt) (fun h b => b = true ∧ look sid h = .away) h := by
  refine Program.meets_request_bind.mpr ⟨trivial, fun a ha => ?_⟩
  obtain ⟨m, rfl, hm, -⟩ := ha (by rw [hl]; rfl)
  have hl₁ : look sid (h ++ [⟨.metadata file, .ok m⟩]) = .readOut file len := look_step hl rfl
  refine Program.meets_request_bind.mpr ⟨trivial, fun a ha => ?_⟩
  have hpath := ha rfl
  rw [hl₁] at hpath
  obtain ⟨path, rfl, hp⟩ := hpath
  exact ⟨identityMatches_true hm hp, look_step hl₁ (by simp [noteLook])⟩

theorem privateFilePermissions_opened (hl : look sid h = .opened file) :
    (privateFilePermissions file).Meets (readerContract sid prompt)
      (fun h b => b = true ∧ look sid h = .opened file) h := by
  refine Program.meets_request_bind.mpr ⟨trivial, fun a ha => ?_⟩
  obtain ⟨m, rfl, hm, -⟩ := ha (by rw [hl]; rfl)
  exact ⟨hm.mode, look_step hl rfl⟩

/-- The file is busy, or it is locked and its length known. -/
theorem lockedSize_meets (hl : look sid h = .opened file) :
    (lockedSize file sid).run.Meets (readerContract sid prompt)
      (fun h x => x = .error .busy ∨ ∃ len, x = .ok len ∧ len ≤ maxSessionBytes ∧ look sid h = .sized file len) h := by
  refine meets_lift_bind (identityMatches_opened hl) ?_
  rintro h₁ _ ⟨rfl, hl₁⟩
  refine meets_lift_bind (privateFilePermissions_opened hl₁) ?_
  rintro h₂ _ ⟨rfl, hl₂⟩
  refine meets_ask_bind.mpr ⟨trivial, fun a ha => ?_⟩
  rcases ha hl₂ with rfl | rfl
  · have hl₃ : look sid (h₂ ++ [⟨.tryLockShared file, .ok ()⟩]) = .locked file :=
      look_step hl₂ (if_pos rfl)
    refine meets_ask_bind.mpr ⟨trivial, fun a ha => ?_⟩
    obtain ⟨m, rfl, -, hmax, -⟩ := ha (by rw [hl₃]; rfl)
    have hfits : decide (m.len > maxSessionBytes) = false := decide_eq_false (Nat.not_lt.mpr (hmax hl₃))
    refine meets_exit_bind.mpr ⟨fun e he => (nomatch he), fun m' he => ?_⟩
    cases he
    rw [hfits]
    exact .inr ⟨m.len, rfl, hmax hl₃, look_step hl₃ (if_pos rfl)⟩
  · exact .inl rfl

theorem readShown_meets (hl : look sid h = .sized file len) (hlen : len ≤ maxSessionBytes) :
    (readShown file sid).run.Meets (readerContract sid prompt)
      (fun _ x => ∃ bytes, x = .ok bytes ∧ Shows sid prompt bytes) h := by
  refine meets_ask_bind.mpr ⟨trivial, fun a ha => ?_⟩
  obtain ⟨bytes, rfl, -, hshows⟩ := ha len hl (Nat.le_succ_of_le hlen)
  have hfits : decide (bytes.length > maxSessionBytes) = false := decide_eq_false (Nat.not_lt.mpr hshows.1)
  refine meets_exit_bind.mpr ⟨fun e he => (nomatch he), fun b he => ?_⟩
  cases he
  rw [hfits]
  have hl₁ : look sid (h ++ [⟨.read file (maxSessionBytes + 1), .ok bytes⟩]) = .readOut file len :=
    look_step hl (if_pos rfl)
  refine meets_lift_bind (identityMatches_readOut hl₁) ?_
  rintro h₂ _ ⟨rfl, -⟩
  exact ⟨bytes, rfl, hshows⟩

theorem readListed_meets (hl : look sid h = .sized file len) :
    (readListed file sid len).run.Meets (readerContract sid prompt)
      (fun _ x => ∃ bytes, x = .ok bytes ∧ Shows sid prompt bytes) h := by
  refine meets_ask_bind.mpr ⟨trivial, fun a ha => ?_⟩
  obtain ⟨bytes, rfl, hbytes, hshows⟩ := ha len hl (Nat.le_refl len)
  have hl₁ : look sid (h ++ [⟨.read file len, .ok bytes⟩]) = .readOut file len := look_step hl (if_pos rfl)
  refine meets_exit_bind.mpr ⟨fun e he => (nomatch he), fun b he => ?_⟩
  cases he
  refine meets_ask_bind.mpr ⟨trivial, fun a ha => ?_⟩
  obtain ⟨m, rfl, -, -, hm⟩ := ha (by rw [hl₁]; rfl)
  have hl₂ : look sid (h ++ [⟨.read file len, .ok bytes⟩] ++ [⟨.metadata file, .ok m⟩]) = .readOut file len :=
    look_step hl₁ rfl
  have hsame : (bytes.length != len || !unchangedSize (.ok m) len) = false := by
    simp [unchangedSize, hbytes, hm len hl₁]
  rw [hsame]
  refine meets_lift_bind (identityMatches_readOut hl₂) ?_
  rintro h₃ _ ⟨rfl, -⟩
  exact ⟨bytes, rfl, hshows⟩

/-- What an inspection of the session may end in. -/
def Inspects (prompt : String) (policy : ReadPolicy) (x : Except FileInspectionError ShowResult) : Prop :=
  (∃ r, x = .ok r ∧ r.projection.prompt = prompt) ∨ x = .error (.shown .busy) ∨ x = .error (.shown .missing) ∨
    (x = .error .inventoryTooLarge ∧ policy ≠ .showing)

theorem projected_inspects {policy : ReadPolicy} {x : Except ShowError Bytes}
    (hx : ∃ bytes, x = .ok bytes ∧ Shows sid prompt bytes) : Inspects prompt policy (projected sid x) := by
  obtain ⟨bytes, rfl, -, r, hr, hprompt⟩ := hx
  exact .inl ⟨r, by simp [projected, hr, Except.mapError], hprompt⟩

theorem inspectOpened_meets (policy : ReadPolicy) (hl : look sid h = .opened file) :
    (inspectOpened file sid policy).Meets (readerContract sid prompt) (fun _ x => Inspects prompt policy x.1) h := by
  refine (lockedSize_meets hl).bind ?_
  rintro h₁ _ (rfl | ⟨len, rfl, hlen, hl₁⟩)
  · exact .inr (.inl rfl)
  · cases policy with
    | showing => exact (readShown_meets hl₁ hlen).bind fun _ x hx => projected_inspects hx
    | listing budget =>
      cases hc : budget.charge len with
      | error e =>
        have he : e = .inventoryTooLarge := by
          unfold ListReadBudget.charge at hc
          split at hc <;> cases hc
          rfl
        simp only [hc]
        exact .inr (.inr (.inr ⟨by rw [he], fun h => nomatch h⟩))
      | ok budget =>
        simp only [hc]
        exact (readListed_meets hl₁).bind fun _ x hx => projected_inspects hx

/-- **Inspecting the session** finds it missing, busy, or as it is to be shown. -/
theorem inspectFile_meets (policy : ReadPolicy) (hl : look sid h = .away) :
    (inspectFile sid policy).Meets (readerContract sid prompt)
      (fun h x => look sid h = .away ∧ Inspects prompt policy x.1) h := by
  refine Program.meets_request_bind.mpr ⟨trivial, fun a ha => ?_⟩
  have ha := ha rfl
  rw [hl] at ha
  have hl₁ : ∀ a, look sid (h ++ [⟨.symlinkMetadata (.session sid), a⟩]) = .away := fun a => look_step hl rfl
  rcases ha with rfl | ⟨m, rfl, hk⟩
  · exact ⟨hl₁ _, .inr (.inr (.inl rfl))⟩
  · simp only [hk, ne_eq, not_true_eq_false, if_false]
    refine Program.meets_request_bind.mpr ⟨trivial, fun a ha => ?_⟩
    rcases ha rfl with rfl | ⟨file, rfl⟩
    · exact ⟨look_step (hl₁ _) rfl, .inr (.inr (.inl rfl))⟩
    · have hl₂ : look sid (h ++ [⟨.symlinkMetadata (.session sid), .ok m⟩] ++ [⟨.openRead sid, .ok file⟩]) =
          .opened file := look_step (hl₁ _) (if_pos rfl)
      refine (inspectOpened_meets policy hl₂).bind fun h₃ x hx => ?_
      exact Program.meets_request_bind.mpr ⟨trivial, fun _ _ => ⟨look_step rfl rfl, hx⟩⟩

/-! ## Showing and listing -/

/-- The directory has been seen. -/
def Seen (d : Directory) (h : FsHistory) : Prop := ∃ m, ⟨.symlinkMetadata (.directory d), .ok m⟩ ∈ h

theorem validatePrivateDirectory_meets (d : Directory) (hl : look sid h = .away) :
    (validatePrivateDirectory d).run.Meets (readerContract sid prompt)
      (fun h x => look sid h = .away ∧ (x = .error .missing ∨ x = .ok () ∧ Seen d h)) h := by
  refine meets_ask_bind.mpr ⟨trivial, fun a ha => ?_⟩
  rcases ha with rfl | ⟨m, rfl, hk, hm⟩
  · exact ⟨look_step hl rfl, .inl rfl⟩
  · refine meets_exit_bind.mpr ⟨fun e he => (nomatch he), fun m' he => ?_⟩
    cases he
    simp only [hk, hm, bne_self_eq_false, Bool.not_true, rejectIf_false]
    exact ⟨look_step hl rfl, .inr ⟨rfl, m, by simp⟩⟩

/-- **Showing the session** reports it missing, busy, or with its prompt. -/
theorem showSession_meets (hvalid : validId sid = true) (id : String) (hl : look sid h = .away) :
    (showSession id).run.Meets (readerContract sid prompt) (fun _ x => id = sid → Reports prompt x) h := by
  by_cases hid : validId id = true
  · simp only [showSession, hid, Bool.not_true, Bool.false_eq_true, if_false]
    refine meets_bind (validatePrivateDirectory_meets .application hl) ?_ ?_
    · rintro _ e ⟨-, he | ⟨he, -⟩⟩ <;> cases he
      exact fun _ => .inl rfl
    rintro h₁ _ ⟨hl₁, -⟩
    refine meets_bind (validatePrivateDirectory_meets .sessions hl₁) ?_ ?_
    · rintro _ e ⟨-, he | ⟨he, -⟩⟩ <;> cases he
      exact fun _ => .inl rfl
    rintro h₂ _ ⟨hl₂, -⟩
    by_cases hsid : id = sid
    · subst hsid
      refine meets_lift_bind (inspectFile_meets .showing hl₂) ?_
      rintro h₃ ⟨x, _⟩ ⟨-, ⟨r, rfl, hr⟩ | rfl | rfl | ⟨-, hne⟩⟩ _
      · exact hr
      · exact .inr rfl
      · exact .inl rfl
      · exact absurd rfl hne
    · exact meets_lift_bind (inspectFile_elsewhere hsid .showing hl₂) fun _ _ _ h => absurd h hsid
  · have hid' : validId id = false := by simpa using hid
    simp only [showSession, hid', Bool.not_false, if_true]
    intro heq
    subst heq
    exact absurd hvalid hid

theorem listDirectoryExists_meets (d : Directory) (hl : look sid h = .away) :
    (listDirectoryExists d).run.Meets (readerContract sid prompt)
      (fun h x => look sid h = .away ∧ (x = .ok false ∨ x = .ok true ∧ Seen d h)) h := by
  refine meets_lift_bind (validatePrivateDirectory_meets d hl) ?_
  rintro h₁ _ ⟨hl₁, rfl | ⟨rfl, hseen⟩⟩
  · exact ⟨hl₁, .inl rfl⟩
  · exact ⟨hl₁, .inr ⟨rfl, hseen⟩⟩

theorem collectEntry_error {limits : ListLimits} {acc : Nat × List String} {name : Bytes} {e : ListError}
    (h : collectEntry limits acc (.ok name) = .error e) : e = .inventoryTooLarge := by
  obtain ⟨n, candidates⟩ := acc
  simp only [collectEntry, Except.mapError, ok_bind, bind_error_iff, rejectIf_error_iff] at h
  rcases h with ⟨-, rfl⟩ | ⟨_, -, h⟩
  · rfl
  split at h
  · exact nomatch h
  · rcases bind_error_iff.mp h with h | ⟨_, -, h⟩
    · exact (rejectIf_error_iff.mp h).2.symm
    · exact nomatch h

theorem foldlM_collectEntry_error {limits : ListLimits} {names : List Bytes} {acc : Nat × List String} {e : ListError}
    (h : (names.map Except.ok).foldlM (collectEntry limits) acc = .error e) : e = .inventoryTooLarge := by
  induction names generalizing acc with
  | nil => exact nomatch h
  | cons name names ih =>
    rw [List.map_cons, List.foldlM_cons] at h
    rcases bind_error_iff.mp h with h | ⟨acc', -, h⟩
    · exact collectEntry_error h
    · exact ih h

/-- A directory whose entries can all be read is only ever too large. -/
theorem collectCandidateIds_error {names : List Bytes} {limits : ListLimits} {e : ListError}
    (h : collectCandidateIds (names.map .ok) limits = .error e) : e = .inventoryTooLarge := by
  rcases bind_error_iff.mp h with h | ⟨_, -, h⟩
  · exact foldlM_collectEntry_error h
  · exact nomatch h

/-- Every candidate's part of a list. -/
theorem summarizeCandidates_meets (candidates : List String) (budget : ListReadBudget) (hl : look sid h = .away) :
    (summarizeCandidates candidates budget).run.Meets (readerContract sid prompt)
      (fun _ x => Lists sid prompt x) h := by
  induction candidates generalizing budget h with
  | nil => exact fun _ hmem => nomatch hmem
  | cons id candidates ih =>
    -- what this candidate contributes, then the rest
    have hrest : ∀ {h} (front : List SessionSummary) (budget : ListReadBudget), look sid h = .away →
        Lists sid prompt (.ok front) →
        Program.Meets (readerContract sid prompt) (fun _ x => Lists sid prompt x) h
          (do return front ++ (← summarizeCandidates candidates budget) : FsCall ListError _).run := by
      intro h front budget hl hfront
      refine meets_bind (ih budget hl) (fun _ _ he => he) fun _ back hback => ?_
      intro summary hmem
      rcases List.mem_append.mp hmem with hmem | hmem
      · exact hfront summary hmem
      · exact hback summary hmem
    by_cases hid : id = sid
    · subst hid
      refine meets_lift_bind (inspectFile_meets (.listing budget) hl) ?_
      rintro h₁ ⟨x, policy⟩ ⟨hl₁, ⟨r, rfl, hr⟩ | rfl | rfl | ⟨rfl, -⟩⟩
      · refine hrest [r.intoSummary] (policy.budget budget) hl₁ fun summary hmem _ => ?_
        exact .inr ⟨r, List.mem_singleton.mp hmem, hr⟩
      · refine hrest (listedError id .busy) (policy.budget budget) hl₁ fun summary hmem _ => ?_
        exact .inl (List.mem_singleton.mp hmem)
      · exact hrest (listedError id .missing) (policy.budget budget) hl₁ fun summary hmem => nomatch hmem
      · rfl
    · refine meets_lift_bind (inspectFile_elsewhere hid (.listing budget) hl) ?_
      rintro h₁ ⟨x, policy⟩ ⟨hl₁, hshows⟩
      rcases x with (e | _) | r
      · refine hrest (listedError id e) (policy.budget budget) hl₁ fun summary hmem hsid => absurd ?_ hid
        cases e <;> simp only [listedError, List.mem_singleton, List.not_mem_nil] at hmem <;> rw [hmem] at hsid <;>
          exact hsid
      · rfl
      · refine hrest [r.intoSummary] (policy.budget budget) hl₁ fun summary hmem hsid => absurd ?_ hid
        rw [List.mem_singleton.mp hmem] at hsid
        exact (hshows r rfl).symm.trans hsid

/-- **Listing** leaves the session out, or has it busy or as it is to be shown. -/
theorem listFile_meets (limits : ListLimits) (hl : look sid h = .away) :
    (listFile limits).run.Meets (readerContract sid prompt) (fun _ x => Lists sid prompt x) h := by
  have hempty : Lists sid prompt (.ok []) := fun _ hmem => nomatch hmem
  refine meets_bind (listDirectoryExists_meets .application hl) ?_ ?_
  · rintro _ e ⟨-, he | ⟨he, -⟩⟩ <;> cases he
  rintro h₁ _ ⟨hl₁, hx | ⟨hx, -⟩⟩ <;> cases hx
  · exact hempty
  refine meets_bind (listDirectoryExists_meets .sessions hl₁) ?_ ?_
  · rintro _ e ⟨-, he | ⟨he, -⟩⟩ <;> cases he
  rintro h₂ _ ⟨hl₂, hx | ⟨hx, hseen⟩⟩ <;> cases hx
  · exact hempty
  refine meets_ask_bind.mpr ⟨hseen, fun a ha => ?_⟩
  obtain ⟨names, rfl⟩ := ha
  refine meets_exit_bind.mpr ⟨fun e he => (nomatch he), fun entries he => ?_⟩
  cases he
  refine meets_exit_bind.mpr ⟨fun e he => collectCandidateIds_error he, fun candidates _ => ?_⟩
  refine meets_bind (summarizeCandidates_meets candidates _ (look_step hl₂ rfl)) (fun _ _ he => he) ?_
  intro h₃ summaries hlists summary hmem
  exact hlists summary (List.mem_mergeSort.mp hmem)

end

/-! ## What an id is refused for -/

/-- A program that is not refused for an id, whatever it is answered. -/
def NotForId {α : Type} (p : FsCall ShowError α) : Prop :=
  ∀ h, p.run.Meets (.free fun _ _ => True) (fun _ x => x ≠ .error .invalidSessionId) h

section
variable {α β : Type}

theorem notForId_pure (a : α) : NotForId (pure a) := fun _ heq => by cases heq

theorem notForId_exit_bind {x : Except ShowError β} {f : β → FsCall ShowError α} (hx : x ≠ .error .invalidSessionId)
    (hf : ∀ b, NotForId (f b)) : NotForId (exit x >>= f) := by
  intro h
  refine meets_exit_bind.mpr ⟨?_, fun b _ => hf b h⟩
  intro e he heq
  cases heq
  exact hx he

theorem notForId_ask_bind {r : FsRequest} {f : FsAnswer r → FsCall ShowError α} (hf : ∀ a, NotForId (f a)) :
    NotForId (ask r >>= f) := fun _ => meets_ask_bind.mpr ⟨trivial, fun a _ => hf a _⟩

theorem notForId_lift_bind {p : FsProgram β} {f : β → FsCall ShowError α} (hf : ∀ b, NotForId (f b)) :
    NotForId (ExceptT.lift p >>= f) :=
  fun _ => meets_lift_bind (Program.meets_any p) fun h b _ => hf b h

theorem notForId_bind {p : FsCall ShowError β} {f : β → FsCall ShowError α} (hp : NotForId p)
    (hf : ∀ b, NotForId (f b)) : NotForId (p >>= f) := by
  intro h
  refine meets_bind (hp h) ?_ fun h b _ => hf b h
  intro _ e he heq
  cases heq
  exact he rfl

end

theorem notForId_exit {α : Type} {x : Except ShowError α} (hx : x ≠ .error .invalidSessionId) : NotForId (exit x) :=
  fun _ => meets_exit.mpr hx

theorem mapOpenError_ne (e : IoError) : mapOpenError e ≠ .invalidSessionId := by
  cases e <;> decide

theorem validatePrivateDirectory_notForId (d : Directory) : NotForId (validatePrivateDirectory d) :=
  notForId_ask_bind fun _ => notForId_exit_bind (mapError_ne mapOpenError_ne) fun _ =>
    notForId_exit_bind (rejectIf_ne (by decide)) fun _ => notForId_exit (rejectIf_ne (by decide))

theorem lockedSize_notForId (file : Nat) (id : String) : NotForId (lockedSize file id) := by
  have hlock : ∀ e, mapLockError e ≠ .invalidSessionId := by
    intro e
    cases e <;> decide
  refine notForId_lift_bind fun _ => notForId_exit_bind (rejectIf_ne (by decide)) fun _ => ?_
  refine notForId_lift_bind fun _ => notForId_exit_bind (rejectIf_ne (by decide)) fun _ => ?_
  refine notForId_ask_bind fun _ => notForId_exit_bind (mapError_ne hlock) fun _ => ?_
  refine notForId_ask_bind fun _ => notForId_exit_bind (mapError_ne fun _ => by decide) fun _ => ?_
  exact notForId_exit_bind (rejectIf_ne (by decide)) fun _ => notForId_pure _

theorem readShown_notForId (file : Nat) (id : String) : NotForId (readShown file id) := by
  refine notForId_ask_bind fun _ => notForId_exit_bind (mapError_ne fun _ => by decide) fun _ => ?_
  refine notForId_exit_bind (rejectIf_ne (by decide)) fun _ => notForId_lift_bind fun _ => ?_
  exact notForId_exit_bind (rejectIf_ne (by decide)) fun _ => notForId_pure _

theorem projected_ne {id : String} {bytes : Except ShowError Bytes} (h : bytes ≠ .error .invalidSessionId) :
    projected id bytes ≠ .error (.shown .invalidSessionId) := by
  cases bytes with
  | ok bytes =>
    refine mapError_ne fun e => ?_
    cases e <;> decide
  | error e =>
    intro heq
    cases heq
    exact h rfl

theorem inspectOpened_meets_free (file : Nat) (id : String) {h : FsHistory} :
    (inspectOpened file id .showing).Meets (.free fun _ _ => True)
      (fun _ x => x.1 ≠ .error (.shown .invalidSessionId)) h := by
  refine (lockedSize_notForId file id h).bind fun h x hx => ?_
  cases x with
  | error e =>
    intro heq
    cases heq
    exact hx rfl
  | ok size => exact (readShown_notForId file id h).bind fun h bytes hbytes => projected_ne hbytes

theorem inspectFile_meets_free (id : String) {h : FsHistory} :
    (inspectFile id .showing).Meets (.free fun _ _ => True)
      (fun _ x => x.1 ≠ .error (.shown .invalidSessionId)) h := by
  have hopen : ∀ e : IoError, (Except.error (FileInspectionError.shown (mapOpenError e)) :
      Except FileInspectionError ShowResult) ≠ .error (.shown .invalidSessionId) := by
    intro e
    cases e <;> exact fun heq => by cases heq
  refine Program.meets_request_bind.mpr ⟨trivial, fun m _ => ?_⟩
  cases m with
  | error e => exact hopen e
  | ok m =>
    dsimp only
    split
    · exact fun heq => by cases heq
    · refine Program.meets_request_bind.mpr ⟨trivial, fun file _ => ?_⟩
      cases file with
      | error e => exact hopen e
      | ok file =>
        refine (inspectOpened_meets_free file id).bind fun h x hx => ?_
        exact ⟨trivial, fun _ _ => hx⟩

/-- **An id that can be one** is never what a session is not shown for. -/
theorem showSession_notForId {id : String} (hid : validId id = true) : NotForId (showSession id) := by
  intro h
  rw [showSession, hid]
  refine notForId_bind (validatePrivateDirectory_notForId .application) (fun _ => ?_) h
  refine notForId_bind (validatePrivateDirectory_notForId .sessions) fun _ h => ?_
  refine meets_lift_bind (inspectFile_meets_free id) fun h x hx => meets_exit.mpr ?_
  obtain ⟨result, policy⟩ := x
  cases result with
  | ok shown => exact fun heq => by cases heq
  | error e =>
    intro heq
    cases e with
    | shown e =>
      cases heq
      exact hx rfl
    | inventoryTooLarge => cases heq

end AgentHarness.SessionLog
