/-
Showing and listing while nothing changes. They read through different
policies and map their errors differently, and still agree on every session,
unless there is no entry for it and the directory does not let it be looked
for. Last the listing by itself, whatever its inspections come to
(`listFile_inventory`).
-/
import AgentHarness.SessionLog.Inventory
import AgentHarness.SessionLog.RoundTrip

namespace AgentHarness.SessionLog

open Text Except Interact

/-! ## An error that cannot be -/

section
variable {file : Nat} {id : String} {h : FsHistory}

/-- A contract that asks for nothing: it speaks of what is returned only. -/
abbrev anyRequest : Contract FsRequest FsAnswer := .free fun _ _ => True

/-- An early exit with any error but one. -/
theorem meets_exit_bind_ne {α β : Type} {x : Except ShowError α} {f : α → FsCall ShowError β} {e : ShowError}
    (hx : x ≠ .error e) (hf : ∀ a, (f a).run.Meets anyRequest (fun _ y => y ≠ .error e) h) :
    (exit x >>= f).run.Meets anyRequest (fun _ y => y ≠ .error e) h :=
  meets_exit_bind.mpr ⟨fun e' he h => hx (by cases h; exact he), fun a _ => hf a⟩

theorem mapError_ne {ε ε' α : Type} {x : Except ε α} {f : ε → ε'} {e : ε'} (hf : ∀ a, f a ≠ e) : x.mapError f ≠ .error e := by
  cases x with
  | error a => exact fun h => hf a (Except.error.inj h)
  | ok a => nofun

theorem rejectIf_ne {ε : Type} {c : Bool} {e e' : ε} (he : e ≠ e') : (rejectIf c e : Except ε PUnit) ≠ .error e' := fun h =>
  he (rejectIf_error_iff.mp h).2

theorem lockedSize_valid : (lockedSize file id).run.Meets anyRequest (fun _ x => x ≠ .error .invalidSessionId) h := by
  refine meets_lift_bind (Program.meets_any _) fun _ _ _ => meets_exit_bind_ne (rejectIf_ne nofun) fun _ => ?_
  refine meets_lift_bind (Program.meets_any _) fun _ _ _ => meets_exit_bind_ne (rejectIf_ne nofun) fun _ => ?_
  refine meets_ask_bind.mpr ⟨trivial, fun a _ => meets_exit_bind_ne (mapError_ne ?_) fun _ => ?_⟩
  · intro e
    cases e <;> nofun
  · refine meets_ask_bind.mpr ⟨trivial, fun a _ => meets_exit_bind_ne (mapError_ne fun _ => nofun) fun _ => ?_⟩
    exact meets_exit_bind_ne (rejectIf_ne nofun) fun _ => nofun

theorem readShown_valid : (readShown file id).run.Meets anyRequest (fun _ x => x ≠ .error .invalidSessionId) h := by
  refine meets_ask_bind.mpr ⟨trivial, fun a _ => meets_exit_bind_ne (mapError_ne fun _ => nofun) fun _ => ?_⟩
  refine meets_exit_bind_ne (rejectIf_ne nofun) fun _ => ?_
  exact meets_lift_bind (Program.meets_any _) fun _ _ _ => meets_exit_bind_ne (rejectIf_ne nofun) fun _ => nofun

theorem readListed_valid {size : Nat} :
    (readListed file id size).run.Meets anyRequest (fun _ x => x ≠ .error .invalidSessionId) h := by
  refine meets_ask_bind.mpr ⟨trivial, fun a _ => meets_exit_bind_ne (mapError_ne fun _ => nofun) fun _ => ?_⟩
  refine meets_ask_bind.mpr ⟨trivial, fun a _ => meets_exit_bind_ne (rejectIf_ne nofun) fun _ => ?_⟩
  exact meets_lift_bind (Program.meets_any _) fun _ _ _ => meets_exit_bind_ne (rejectIf_ne nofun) fun _ => nofun

theorem projected_valid {x : Except ShowError Bytes} (hx : x ≠ .error .invalidSessionId) :
    projected id x ≠ .error (.shown .invalidSessionId) := by
  cases x with
  | error e => exact fun h => hx (by cases h; rfl)
  | ok bytes =>
    refine mapError_ne fun e => ?_
    cases e <;> nofun

theorem mapOpenError_valid (e : IoError) :
    (.error (.shown (mapOpenError e)) : Except FileInspectionError ShowResult) ≠ .error (.shown .invalidSessionId) := by
  cases e <;> nofun

theorem inspectOpened_valid {policy : ReadPolicy} :
    (inspectOpened file id policy).Meets anyRequest (fun _ x => x.1 ≠ .error (.shown .invalidSessionId)) h := by
  refine lockedSize_valid.bind fun h x hx => ?_
  cases x with
  | error e => exact fun he => hx (by cases he; rfl)
  | ok size =>
    cases policy with
    | showing => exact readShown_valid.bind fun h x hx => projected_valid hx
    | listing budget =>
      simp only [ListReadBudget.charge]
      by_cases hfits : budget.used + size > budget.limit
      · simp only [if_pos hfits]
        nofun
      · simp only [if_neg hfits]
        exact readListed_valid.bind fun h x hx => projected_valid hx

/-- **No inspection finds an id invalid**, whatever is answered. -/
theorem inspectFile_valid {policy : ReadPolicy} :
    (inspectFile id policy).Meets anyRequest (fun _ x => x.1 ≠ .error (.shown .invalidSessionId)) h := by
  refine Program.meets_request_bind.mpr ⟨trivial, fun a _ => ?_⟩
  cases a with
  | error e => exact mapOpenError_valid e
  | ok m =>
    by_cases hkind : m.kind ≠ .file
    · simp only [if_pos hkind]
      nofun
    · simp only [if_neg hkind]
      refine Program.meets_request_bind.mpr ⟨trivial, fun a _ => ?_⟩
      cases a with
      | error e => exact mapOpenError_valid e
      | ok file =>
        refine inspectOpened_valid.bind ?_
        intro h x hx
        exact ⟨trivial, fun _ _ => hx⟩

end

/-- The two directories and what is in the second while nothing changes:
what each call answers, however often. Reads succeed, a file is as long as
its bytes are, and a name that is not in the directory is no file's, in
whatever other case it may be there. -/
structure Still where
  directory : Directory → Except IoError Metadata
  names : Except IoError (List Bytes)
  session : String → Except IoError Metadata
  opened : String → Except IoError Nat
  fstat : Nat → Except IoError Metadata
  lock : Nat → Except TryLockError Unit
  contents : Nat → Bytes
  nodup : ∀ ns, names = .ok ns → ns.Nodup
  absent : ∀ ns id, names = .ok ns → fileName id ∉ ns → ∃ e, session id = .error e
  length : ∀ file m, fstat file = .ok m → m.len = (contents file).length

namespace Still

/-- The answers to the calls that showing and listing make. -/
def answer (st : Still) : (r : FsRequest) → Option (FsAnswer r)
  | .symlinkMetadata (.directory d) => some (st.directory d)
  | .symlinkMetadata (.session id) => some (st.session id)
  | .readDir .sessions => some (st.names.map fun ns => ns.map .ok)
  | .openRead id => some (st.opened id)
  | .metadata file => some (st.fstat file)
  | .tryLockShared file => some (st.lock file)
  | .read file limit => some (.ok ((st.contents file).take limit))
  | .close _ => some ()
  | _ => none

/-- Nothing changes. -/
def effect (st : Still) : Effect Unit FsAnswer Unit := fun _ _ r a _ => st.answer r = some a

theorem answers {st : Still} {r : FsRequest} {a : FsAnswer r} (h : st.answer r = some a) :
    Answers st.effect () () r a () := by
  intro b s
  rw [effect, h, Option.some.injEq]
  exact ⟨fun hb => ⟨hb.symm, rfl⟩, fun hb => hb.1.symm⟩

/-! ## What the calls come to -/

section
variable (st : Still)

/-- Whatever runs in the still directories returns this. -/
def Gives {α : Type} (p : FsProgram α) (a : α) : Prop := Alone st.effect () (fun _ b => b = a) () p

def same (file : Nat) (id : String) : Bool :=
  match st.fstat file, st.session id with
  | .ok handle, .ok path =>
    path.kind == .file && handle.kind == .file && handle.ino == path.ino && handle.nlink == 1 && path.nlink == 1
  | _, _ => false

def unshared (file : Nat) : Bool :=
  match st.fstat file with
  | .ok m => isPrivate m.mode
  | .error _ => false

def size (file : Nat) (id : String) : Except ShowError Nat := do
  rejectIf (!st.same file id) .storeUnavailable
  rejectIf (!st.unshared file) .storeUnavailable
  (st.lock file).mapError mapLockError
  rejectIf ((st.contents file).length > maxSessionBytes) .corrupt
  return (st.contents file).length

/-- What the session's file shows. -/
def shown (file : Nat) (id : String) : Except ShowError ShowResult :=
  (project (st.contents file) id).mapError mapProjectionError

theorem shown_sessionId {file : Nat} {id : String} {r : ShowResult} (h : st.shown file id = .ok r) :
    r.projection.sessionId = id := by
  unfold shown at h
  cases hp : project (st.contents file) id with
  | error e => rw [hp] at h; cases h
  | ok r' =>
    rw [hp] at h
    cases h
    exact project_sessionId hp

def inspectionOpened (file : Nat) (id : String) : Inspection id :=
  match st.size file id with
  | .error e => .refused e
  | .ok size => .read size (st.shown file id) fun _ => st.shown_sessionId

def inspection (id : String) : Inspection id :=
  match st.session id with
  | .error e => .refused (mapOpenError e)
  | .ok m =>
    if m.kind ≠ .file then .refused .storeUnavailable
    else match st.opened id with
      | .error e => .refused (mapOpenError e)
      | .ok file => st.inspectionOpened file id

end

variable {st : Still} {file : Nat} {id : String}

/-! ### Sequencing -/

section
variable {ε α β : Type}

theorem gives_request_bind {r : FsRequest} {a : FsAnswer r} {f : FsAnswer r → FsProgram β} {b : β} (h : st.answer r = some a)
    (hf : st.Gives (f a) b) : st.Gives (request r >>= f) b := (alone_request_bind (answers h)).mpr hf

theorem Gives.bind {p : FsProgram α} {a : α} {f : α → FsProgram β} {b : β} (hp : st.Gives p a) (hf : st.Gives (f a) b) :
    st.Gives (p >>= f) b :=
  Alone.bind hp fun _ _ ha => by
    subst ha
    exact hf

theorem gives_ask_bind {r : FsRequest} {a : FsAnswer r} {f : FsAnswer r → FsCall ε β} {y : Except ε β}
    (h : st.answer r = some a) (hf : st.Gives (f a).run y) : st.Gives (ask r >>= f).run y :=
  (alone_ask_bind (answers h)).mpr hf

theorem gives_lift_bind {p : FsProgram α} {a : α} {f : α → FsCall ε β} {y : Except ε β} (hp : st.Gives p a)
    (hf : st.Gives (f a).run y) : st.Gives (ExceptT.lift p >>= f).run y :=
  alone_lift_bind hp fun _ _ ha => by
    subst ha
    exact hf

theorem gives_bind {p : FsCall ε α} {x : Except ε α} {f : α → FsCall ε β} {g : α → Except ε β} (hp : st.Gives p.run x)
    (hf : ∀ a, x = .ok a → st.Gives (f a).run (g a)) : st.Gives (p >>= f).run (x >>= g) := by
  refine alone_bind hp (fun _ e he => ?_) fun _ a ha => ?_
  · rw [← he]
    rfl
  · rw [← ha]
    exact hf a ha.symm

theorem gives_exit_bind {x : Except ε α} {f : α → FsCall ε β} {g : α → Except ε β}
    (hf : ∀ a, x = .ok a → st.Gives (f a).run (g a)) : st.Gives (exit x >>= f).run (x >>= g) := by
  cases x with
  | error e => rfl
  | ok a => exact hf a rfl

end

/-! ### One file -/

theorem identityMatches_gives : st.Gives (identityMatches file id) (st.same file id) := by
  refine gives_request_bind rfl ?_
  unfold same
  cases st.fstat file with
  | error e => rfl
  | ok handle =>
    refine gives_request_bind rfl ?_
    cases st.session id <;> rfl

theorem privateFilePermissions_gives : st.Gives (privateFilePermissions file) (st.unshared file) := by
  refine gives_request_bind rfl ?_
  unfold unshared
  cases st.fstat file <;> rfl

theorem fstat_of_same (h : st.same file id = true) : ∃ m, st.fstat file = .ok m := by
  unfold same at h
  split at h
  · exact ⟨_, ‹_›⟩
  · cases h

theorem lockedSize_gives : st.Gives (lockedSize file id).run (st.size file id) := by
  refine gives_lift_bind identityMatches_gives (gives_exit_bind fun _ hsame => ?_)
  obtain ⟨m, hm⟩ := fstat_of_same (by simpa using hsame)
  refine gives_lift_bind privateFilePermissions_gives (gives_exit_bind fun _ _ => ?_)
  refine gives_ask_bind rfl (gives_exit_bind fun _ _ => ?_)
  refine gives_ask_bind rfl ?_
  rw [hm, ← st.length file m hm]
  exact gives_exit_bind fun _ _ => rfl

theorem size_ok {size : Nat} (h : st.size file id = .ok size) :
    st.same file id = true ∧ size = (st.contents file).length ∧ (st.contents file).length ≤ maxSessionBytes := by
  simp only [Still.size, bind_ok_iff, rejectIf_ok_iff, Bool.not_eq_false', decide_eq_false_iff_not, Nat.not_lt,
    pure_ok_iff, exists_const] at h
  obtain ⟨hsame, -, -, -, hsize, rfl⟩ := h
  exact ⟨hsame, rfl, hsize⟩

theorem readShown_gives {size : Nat} (h : st.size file id = .ok size) :
    st.Gives (readShown file id).run (.ok (st.contents file)) := by
  obtain ⟨hsame, -, hsize⟩ := size_ok h
  have htake : (st.contents file).take (maxSessionBytes + 1) = st.contents file := List.take_of_length_le (by omega)
  refine gives_ask_bind rfl ?_
  rw [htake]
  have hlong : decide ((st.contents file).length > maxSessionBytes) = false := decide_eq_false (Nat.not_lt.mpr hsize)
  refine gives_exit_bind (x := .ok _) (g := fun _ => .ok (st.contents file)) fun bytes hb => ?_
  cases hb
  rw [hlong]
  refine gives_exit_bind (x := .ok _) (g := fun _ => .ok (st.contents file)) fun _ _ => ?_
  refine gives_lift_bind identityMatches_gives ?_
  rw [hsame]
  exact gives_exit_bind (x := .ok _) fun _ _ => rfl

theorem readListed_gives {size : Nat} (h : st.size file id = .ok size) :
    st.Gives (readListed file id size).run (.ok (st.contents file)) := by
  obtain ⟨hsame, rfl, -⟩ := size_ok h
  obtain ⟨m, hm⟩ := fstat_of_same hsame
  refine gives_ask_bind rfl ?_
  rw [List.take_length]
  refine gives_exit_bind (x := .ok _) (g := fun _ => .ok (st.contents file)) fun bytes hb => ?_
  cases hb
  refine gives_ask_bind rfl ?_
  have hsize : ((st.contents file).length != (st.contents file).length ||
      !unchangedSize (st.fstat file) (st.contents file).length) = false := by
    simp [hm, unchangedSize, st.length file m hm]
  rw [hsize]
  refine gives_exit_bind (x := .ok _) (g := fun _ => .ok (st.contents file)) fun _ _ => ?_
  refine gives_lift_bind identityMatches_gives ?_
  rw [hsame]
  exact gives_exit_bind (x := .ok _) fun _ _ => rfl

theorem projected_contents : projected id (.ok (st.contents file)) = (st.shown file id).mapError .shown := by
  simp only [projected, shown]
  cases project (st.contents file) id <;> rfl

theorem inspectOpened_gives {policy : ReadPolicy} :
    st.Gives (inspectOpened file id policy) ((st.inspectionOpened file id).under policy) := by
  refine Gives.bind lockedSize_gives ?_
  unfold inspectionOpened
  cases hsize : st.size file id with
  | error e => cases policy <;> rfl
  | ok size =>
    cases policy with
    | showing =>
      refine Gives.bind (readShown_gives hsize) ?_
      rw [projected_contents]
      rfl
    | listing budget =>
      simp only [Inspection.under, Inspection.charged]
      cases budget.charge size with
      | error e => rfl
      | ok budget =>
        refine Gives.bind (readListed_gives hsize) ?_
        rw [projected_contents]
        rfl

/-- Both policies inspect to the same. -/
theorem inspectFile_gives {policy : ReadPolicy} : st.Gives (inspectFile id policy) ((st.inspection id).under policy) := by
  refine gives_request_bind rfl ?_
  unfold inspection
  cases st.session id with
  | error e => cases policy <;> rfl
  | ok m =>
    by_cases hkind : m.kind ≠ .file
    · simp only [if_pos hkind]
      cases policy <;> rfl
    · simp only [if_neg hkind]
      refine gives_request_bind rfl ?_
      cases st.opened id with
      | error e => cases policy <;> rfl
      | ok file => exact Gives.bind inspectOpened_gives (gives_request_bind rfl rfl)

/-! ### The two commands -/

variable (st) in
def validate (d : Directory) : Except ShowError Unit := do
  let m ← (st.directory d).mapError mapOpenError
  rejectIf (m.kind != .directory) .storeUnavailable
  rejectIf (!isPrivate m.mode) .storeUnavailable

variable (st) in
/-- What showing a session comes to. -/
def outcome (id : String) : Except ShowError ShowResult := do
  st.validate .application
  st.validate .sessions
  (st.inspection id).result

theorem validatePrivateDirectory_gives {d : Directory} :
    st.Gives (validatePrivateDirectory d).run (st.validate d) := by
  refine gives_ask_bind rfl (gives_exit_bind fun m _ => gives_exit_bind fun _ _ => ?_)
  rfl

theorem showSession_gives (hid : validId id = true) : st.Gives (showSession id).run (st.outcome id) := by
  have hvalid : (!validId id) = false := by rw [hid]; rfl
  rw [showSession, hvalid, if_neg Bool.false_ne_true]
  refine gives_bind validatePrivateDirectory_gives fun _ _ => gives_bind validatePrivateDirectory_gives fun _ _ => ?_
  refine gives_lift_bind inspectFile_gives ?_
  cases h : (st.inspection id).result <;> simp only [Inspection.under, h] <;> rfl

/-- Whether there is a directory to list, or why there is no list. -/
def listable : Except ShowError Unit → Except ListError Bool
  | .ok _ => .ok true
  | .error .missing => .ok false
  | .error _ => .error .storeUnavailable

theorem listDirectoryExists_gives {d : Directory} :
    st.Gives (listDirectoryExists d).run (listable (st.validate d)) := by
  refine gives_lift_bind validatePrivateDirectory_gives ?_
  cases st.validate d with
  | ok _ => rfl
  | error e => cases e <;> rfl

/-- Directories that hold still are ones that are listed. -/
theorem inventoried {ns : List Bytes} (happlication : st.validate .application = .ok ()) (hsessions : st.validate .sessions = .ok ())
    (hnames : st.names = .ok ns) : Inventoried st.inspection ns st.effect () where
  directory d s := by
    have hd : st.validate d = .ok () := by cases d <;> assumption
    exact hd ▸ validatePrivateDirectory_gives
  names s := by
    refine (alone_ask_of_answers (answers rfl)).mpr ?_
    rw [hnames]
    rfl
  inspect id budget s := by
    have h : st.Gives (inspectFile id (.listing budget)) ((st.inspection id).under (.listing budget)) := inspectFile_gives
    exact h

theorem validate_of_listable {d : Directory} (h : listable (st.validate d) = .ok true) : st.validate d = .ok () := by
  cases hd : st.validate d with
  | ok _ => rfl
  | error e => rw [hd] at h; cases e <;> cases h

variable (st) in
/-- What listing comes to. -/
def inventory (limits : ListLimits) : Except ListError (List SessionSummary) := do
  if !(← listable (st.validate .application)) then return []
  if !(← listable (st.validate .sessions)) then return []
  let ns ← st.names.mapError fun _ => .storeUnavailable
  SessionLog.inventory st.inspection limits ns

theorem listFile_gives (limits : ListLimits) : st.Gives (listFile limits).run (st.inventory limits) := by
  refine gives_bind listDirectoryExists_gives fun application happlication => ?_
  cases application with
  | false => rfl
  | true =>
    refine gives_bind listDirectoryExists_gives fun sessions hsessions => ?_
    cases sessions with
    | false => rfl
    | true =>
      refine gives_ask_bind rfl ?_
      cases hnames : st.names with
      | error e => rfl
      | ok ns => exact listNames_alone (inventoried (validate_of_listable happlication) (validate_of_listable hsessions) hnames)

end Still

/-! ## Agreement -/

namespace Still
variable {st : Still} {id : String}

theorem inspection_valid : (st.inspection id).result ≠ .error .invalidSessionId := by
  have hgives : st.Gives (inspectFile id .showing) ((st.inspection id).under .showing) := inspectFile_gives
  obtain ⟨_, x, hreturns⟩ := hgives.exists_returns
  obtain ⟨rfl, hx⟩ := (hgives.and_meets (inspectFile_valid (h := [])) fun _ _ _ => trivial).returns hreturns
  intro hresult
  exact hx (by rw [Inspection.under, hresult]; rfl)

/-- Who lists at all lists nothing, or has seen what is shown. -/
theorem inventory_ok {limits : ListLimits} {summaries : List SessionSummary} (id : String) (h : st.inventory limits = .ok summaries) :
    (summaries = [] ∧ st.outcome id = .error .missing) ∨ ∃ ns, st.names = .ok ns ∧
      SessionLog.inventory st.inspection limits ns = .ok summaries ∧ st.outcome id = (st.inspection id).result := by
  have hmissing : ∀ {x : Except ShowError Unit}, listable x = .ok false → x = .error .missing := by
    intro x hx
    cases x with
    | ok _ => cases hx
    | error e => cases e <;> first | rfl | cases hx
  simp only [inventory, bind_ok_iff] at h
  obtain ⟨application, happlication, h⟩ := h
  cases application with
  | false =>
    cases h
    refine .inl ⟨rfl, ?_⟩
    rw [outcome, hmissing happlication, error_bind]
  | true =>
    obtain ⟨sessions, hsessions, h⟩ := bind_ok_iff.mp h
    rw [outcome, validate_of_listable happlication, ok_bind]
    cases sessions with
    | false =>
      cases h
      refine .inl ⟨rfl, ?_⟩
      rw [hmissing hsessions, error_bind]
    | true =>
      obtain ⟨ns, hns, h⟩ := bind_ok_iff.mp h
      rw [validate_of_listable hsessions, ok_bind]
      cases hnames : st.names with
      | error e => rw [hnames] at hns; cases hns
      | ok ns' =>
        rw [hnames] at hns
        cases hns
        exact .inr ⟨_, rfl, h, rfl⟩

/-- **List and show agree** on every session while nothing changes, unless
its file can neither be looked up nor is listed. -/
theorem list_show_agree (st : Still) (limits : ListLimits) {id : String} (hid : validId id = true) :
    ∃ (x : Except ListError (List SessionSummary)) (y : Except ShowError ShowResult),
      st.Gives (listFile limits).run x ∧ st.Gives (showSession id).run y ∧
      (∀ summaries, x = .ok summaries →
        summaries.filter (fun summary => decide (summary.sessionId = id)) = (entry id y).toList ∨
        (∃ ns e, st.names = .ok ns ∧ fileName id ∉ ns ∧ st.session id = .error e ∧ e ≠ .notFound) ∧
          summaries.filter (fun summary => decide (summary.sessionId = id)) = [] ∧ y = .error .storeUnavailable) ∧
      ∀ id policy h, (inspectFile id policy).Meets anyRequest
        (fun _ x => x.1 ≠ .error (.shown .invalidSessionId)) h := by
  refine ⟨st.inventory limits, st.outcome id, listFile_gives limits, showSession_gives hid, fun summaries hs => ?_,
    fun _ _ _ => inspectFile_valid⟩
  rcases inventory_ok id hs with ⟨rfl, houtcome⟩ | ⟨ns, hns, hinventory, houtcome⟩
  · rw [houtcome]
    exact .inl rfl
  · rw [houtcome, inventory_filter (st.nodup ns hns) hinventory]
    by_cases hlisted : fileName id ∈ ns
    · rw [if_pos ⟨hid, hlisted⟩, Inspection.listed_entry inspection_valid]
      exact .inl rfl
    · obtain ⟨e, he⟩ := st.absent ns id hns hlisted
      rw [if_neg fun h => hlisted h.2]
      have hresult : (st.inspection id).result = .error (mapOpenError e) := by rw [inspection, he]; rfl
      rw [hresult]
      by_cases hfound : e = .notFound
      · subst hfound
        exact .inl rfl
      · refine .inr ⟨⟨ns, e, hns, hlisted, he, hfound⟩, rfl, ?_⟩
        cases e <;> first | rfl | exact absurd rfl hfound

end Still

/-! ## A directory that cannot be searched -/

namespace Still

theorem Gives.eq {st : Still} {α : Type} {p : FsProgram α} {a b : α} (ha : st.Gives p a) (hb : st.Gives p b) : a = b := by
  obtain ⟨_, c, hreturns⟩ := ha.exists_returns
  rw [← ha.returns hreturns, hb.returns hreturns]

def sampleId : String := "00000000000000000000000000000001"

def privateDirectory (mode : Nat) : Metadata where
  kind := .directory
  mode
  ino := 1
  nlink := 2
  len := 0

/-- An empty sessions directory that may be read but not searched. -/
def unsearchable : Still where
  directory
    | .application => .ok (privateDirectory 0o700)
    | .sessions => .ok (privateDirectory 0o600)
  names := .ok []
  session _ := .error .other
  opened _ := .error .other
  fstat _ := .error .other
  lock _ := .error .error
  contents _ := []
  nodup ns h := by cases h; exact .nil
  absent _ _ _ _ := ⟨.other, rfl⟩
  length _ _ h := by cases h

/-- The list has nothing for the id, and it is not shown as missing. -/
theorem unsearchable_disagrees : validId sampleId = true ∧ unsearchable.Gives (listFile listLimits).run (.ok []) ∧
    unsearchable.Gives (showSession sampleId).run (.error .storeUnavailable) := by
  have hid : validId sampleId = true := by decide +kernel
  have hinventory : unsearchable.inventory listLimits = .ok [] := by
    have hempty : SessionLog.inventory unsearchable.inspection listLimits [] = .ok [] := by
      simp [SessionLog.inventory, WithinLimits, sessionIds]
    exact hempty
  have houtcome : unsearchable.outcome sampleId = .error .storeUnavailable := rfl
  exact ⟨hid, hinventory ▸ listFile_gives listLimits, houtcome ▸ showSession_gives hid⟩

/-- A link in the place of a session's file. -/
def linked : Still where
  directory _ := .ok (privateDirectory 0o700)
  names := .ok [fileName sampleId]
  session id := if id = sampleId then .ok { kind := .symlink, mode := 0o777, ino := 2, nlink := 1, len := 4 } else .error .notFound
  opened _ := .error .other
  fstat _ := .error .other
  lock _ := .error .error
  contents _ := []
  nodup ns h := by cases h; exact List.nodup_singleton _
  absent ns id h hmem := by
    cases h
    have hne : id ≠ sampleId := by
      intro heq
      subst heq
      exact hmem List.mem_cons_self
    exact ⟨.notFound, if_neg hne⟩
  length _ _ h := by cases h

theorem list_show_agree_sample : ∃ summaries, linked.Gives (listFile listLimits).run (.ok summaries) ∧
    summaries.filter (fun summary => decide (summary.sessionId = sampleId)) =
      [{ sessionId := sampleId, createdAtUnixMs := none, status := .unavailable, trailingFragment := false }] := by
  have hid : validId sampleId = true := by decide +kernel
  obtain ⟨x, y, hx, hy, h, -⟩ := list_show_agree linked listLimits hid
  have hwithin : WithinLimits linked.inspection listLimits [fileName sampleId] := by decide +kernel
  have hlist : linked.inventory listLimits = SessionLog.inventory linked.inspection listLimits [fileName sampleId] := rfl
  rw [SessionLog.inventory, if_pos hwithin] at hlist
  have hshow : linked.outcome sampleId = .error .storeUnavailable := rfl
  obtain rfl : x = _ := hx.eq (hlist ▸ listFile_gives listLimits)
  obtain rfl : y = _ := hy.eq (hshow ▸ showSession_gives hid)
  refine ⟨_, hx, ?_⟩
  rcases h _ rfl with h | ⟨⟨ns, _, hns, hmem, -⟩, -⟩
  · exact h
  · cases hns
    exact absurd List.mem_cons_self hmem

end Still

/-! ## The listing -/

/-- **Listing loses nothing, duplicates nothing and has one order**, and
neither depends on the order of the directory. -/
theorem listFile_inventory (inspections : Inspections) (limits : ListLimits) {names : List Bytes} (hnames : names.Nodup) :
    ∃ x : Except ListError (List SessionSummary),
      (∀ names', names'.Perm names → ∀ (ι σ : Type) (exec : Effect ι FsAnswer σ) (i : ι),
        Inventoried inspections names' exec i → ∀ s, Alone exec i (fun _ y => y = x) s (listFile limits).run) ∧
      (¬WithinLimits inspections limits names → x = .error .inventoryTooLarge) ∧
      (WithinLimits inspections limits names → ∃ summaries, x = .ok summaries ∧
        (∀ id, (∃ name ∈ names, Canonical id name) → (inspections id).result ≠ .error .missing →
          ∃ summary, summaries.filter (fun summary => decide (summary.sessionId = id)) = [summary] ∧
            ∀ expected ∈ entry id (inspections id).result, summary = expected) ∧
        (∀ summary ∈ summaries, (∃ name ∈ names, Canonical summary.sessionId name) ∧
          (inspections summary.sessionId).result ≠ .error .missing) ∧
        summaries.Pairwise SessionSummary.Before) := by
  refine ⟨inventory inspections limits names, ?_, fun h => if_neg h, fun h => ?_⟩
  · intro names' hperm ι σ exec i hinventoried s
    rw [← inventory_perm hperm]
    exact listFile_alone hinventoried
  · obtain ⟨summaries, hok⟩ : ∃ summaries, inventory inspections limits names = .ok summaries := ⟨_, if_pos h⟩
    refine ⟨summaries, hok, fun id hname hfound => ?_, fun summary hmem => ?_, inventory_before hnames hok⟩
    · rw [inventory_filter hnames hok, if_pos (exists_canonical.mp hname)]
      exact Inspection.listed_one hfound
    · have hlisted : summary ∈ summaries.filter fun s => decide (s.sessionId = summary.sessionId) :=
        List.mem_filter.mpr ⟨hmem, decide_eq_true rfl⟩
      rw [inventory_filter hnames hok] at hlisted
      split at hlisted
      · rename_i hname
        refine ⟨exists_canonical.mpr hname, fun hmissing => ?_⟩
        rw [Inspection.listed, hmissing] at hlisted
        exact absurd hlisted List.not_mem_nil
      · exact absurd hlisted List.not_mem_nil

/-! ## A session that is complete, one that is being written and one that is gone -/

namespace Still

def busyId : String := "0000000000000000000000000000000b"
def goneId : String := "0000000000000000000000000000000c"

/-- In no order, with two names that are no session's. -/
def sampleNames : List Bytes := [fileName goneId, [0xff], fileName busyId, utf8 "notes.txt", fileName sampleSession.sessionId]

def sampleContents (file : Nat) : Bytes := if file = 1 then sampleSession.bytes (some sampleTerminal) else []

def sampleMetadata (file : Nat) : Metadata where
  kind := .file
  mode := 0o600
  ino := file
  nlink := 1
  len := (sampleContents file).length

theorem nodup_sampleNames (ns : List Bytes) (h : (.ok sampleNames : Except IoError (List Bytes)) = .ok ns) : ns.Nodup := by
  cases h
  decide +kernel

def sampleSessions : Still where
  directory _ := .ok (privateDirectory 0o700)
  names := .ok sampleNames
  session id :=
    if id = sampleSession.sessionId then .ok (sampleMetadata 1)
    else if id = busyId then .ok (sampleMetadata 2)
    else .error .notFound
  opened id := .ok (if id = sampleSession.sessionId then 1 else 2)
  fstat file := .ok (sampleMetadata file)
  lock file := if file = 1 then .ok () else .error .wouldBlock
  contents := sampleContents
  nodup := nodup_sampleNames
  absent ns id h hmem := by
    cases h
    have hcomplete : id ≠ sampleSession.sessionId := by
      rintro rfl
      simp [sampleNames] at hmem
    have hbusy : id ≠ busyId := by
      rintro rfl
      simp [sampleNames] at hmem
    exact ⟨.notFound, by rw [if_neg hcomplete, if_neg hbusy]⟩
  length _ _ h := by cases h; rfl

theorem sampleSessions_complete : (sampleSessions.inspection sampleSession.sessionId).result =
    .ok (sampleSession.shown (some (.assistant "é\n")) false) := by
  have hfit : sampleSession.LinesFit (some sampleTerminal) := by
    unfold Session.LinesFit
    decide +kernel
  have hbytes : (sampleSession.bytes (some sampleTerminal)).length ≤ maxSessionBytes := by decide +kernel
  have hsession : sampleSessions.session sampleSession.sessionId = .ok (sampleMetadata 1) := by simp [sampleSessions]
  have hopened : sampleSessions.opened sampleSession.sessionId = .ok 1 := by simp [sampleSessions]
  have hkind : ¬(sampleMetadata 1).kind ≠ .file := fun h => h rfl
  have hsize : sampleSessions.size 1 sampleSession.sessionId = .ok (sampleContents 1).length := by decide +kernel
  have hshown : sampleSessions.shown 1 sampleSession.sessionId =
      (project (sampleSession.bytes (some sampleTerminal)) sampleSession.sessionId).mapError mapProjectionError := rfl
  rw [inspection, hsession]
  dsimp only
  rw [if_neg hkind, hopened]
  dsimp only
  rw [inspectionOpened, hsize]
  dsimp only [Inspection.result]
  rw [hshown, sampleSession.project_bytes hfit hbytes]
  rfl

theorem listFile_inventory_sample : ∃ summaries, sampleSessions.Gives (listFile listLimits).run (.ok summaries) ∧
    summaries.filter (fun summary => decide (summary.sessionId = sampleSession.sessionId)) =
      [⟨sampleSession.sessionId, some 1700000000000, .completed, false⟩] ∧
    summaries.filter (fun summary => decide (summary.sessionId = busyId)) = [⟨busyId, none, .busy, false⟩] ∧
    (∀ summary ∈ summaries, summary.sessionId ≠ goneId) ∧ summaries.Pairwise SessionSummary.Before := by
  have hnames : sampleNames.Nodup := nodup_sampleNames _ rfl
  obtain ⟨_, hlist, -, h⟩ := listFile_inventory sampleSessions.inspection listLimits hnames
  obtain ⟨summaries, rfl, hone, hfrom, hbefore⟩ := h (by decide +kernel)
  have hgives : sampleSessions.Gives (listFile listLimits).run (.ok summaries) :=
    hlist sampleNames (.refl _) Unit Unit _ _ (inventoried rfl rfl rfl) ()
  have hbusy : (sampleSessions.inspection busyId).result = .error .busy := rfl
  have hgone : (sampleSessions.inspection goneId).result = .error .missing := rfl
  have hcanonical : ∀ id, validId id = true ∧ fileName id ∈ sampleNames → ∃ name ∈ sampleNames, Canonical id name :=
    fun id => exists_canonical.mpr
  obtain ⟨complete, hcomplete, hsummary⟩ := hone sampleSession.sessionId (hcanonical _ (by decide +kernel))
    (by rw [sampleSessions_complete]; simp)
  obtain ⟨busy, hfilter, hentry⟩ := hone busyId (hcanonical _ (by decide +kernel)) (by rw [hbusy]; simp)
  rw [sampleSessions_complete] at hsummary
  rw [hbusy] at hentry
  refine ⟨summaries, hgives, ?_, ?_, fun summary hmem hid => ?_, hbefore⟩
  · rw [hcomplete, hsummary _ rfl]
    rfl
  · rw [hfilter, hentry _ rfl]
  · have hfound := (hfrom summary hmem).2
    rw [hid] at hfound
    exact hfound hgone

end Still

end AgentHarness.SessionLog
