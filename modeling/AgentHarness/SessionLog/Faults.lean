/-
Starting a session when calls fail. Whichever call it is, and however much of
a write there was before, the files are as they were or have one more, which
holds the first two lines: a new file is closed and removed before its start
fails, and no other is touched.

The calls that look and the one that removes do not fail here, and nobody
else takes a step.
-/
import AgentHarness.SessionLog.Atomic
import AgentHarness.SessionLog.Publishing

namespace AgentHarness.SessionLog

open Text Except Interact

/-! ## Calls that fail -/

/-- What each request does when it may fail. What fails does nothing, but a
write may have got to any of its bytes; and a file may be given another mode
than was asked for. -/
inductive Faulty {ι : Type} [DecidableEq ι] (i : ι) :
    FileSystem ι → (r : FsRequest) → FsAnswer r → FileSystem ι → Prop
  | works {s r a s'} : Exec i s r a s' → Faulty i s r a s'
  | createDirAll (s d e) : Faulty i s (.createDirAll d) (.error e) s
  | setPermissions (s path mode e) : Faulty i s (.setPermissions path mode) (.error e) s
  | setPermissionsIgnored (s path mode) : Faulty i s (.setPermissions path mode) (.ok ()) s
  | createNew (s id mode e) : Faulty i s (.createNew id mode) (.error e) s
  | createNewMode (s id mode mode' m) : s.directories .sessions = some m → s.sessions id = none →
      Faulty i s (.createNew id mode) (.ok s.next) (s.create id mode')
  | lock (s file e) : Faulty i s (.lock file) (.error e) s
  | writeAll (s file bytes n e) :
      Faulty i s (.writeAll file bytes) (.error e) (s.setInode file fun f => { f with bytes := f.bytes ++ bytes.take n })
  | syncAll (s file e) : Faulty i s (.syncAll file) (.error e) s
  | syncDirectory (s d e) : Faulty i s (.syncDirectory d) (.error e) s

/-- The bytes of each session that has a file. -/
def FileSystem.stored {ι : Type} (s : FileSystem ι) (id : String) : Option Bytes :=
  (s.sessions id).map fun file => (s.inodes file).bytes

/-- A file of its own, whatever is in it and whoever has it locked. -/
structure Inode.Own {ι : Type} (inode : Inode ι) : Prop where
  kind : inode.kind = .file
  nlink : inode.nlink = 1

/-! ## Removing a new file -/

namespace FileSystem
variable {ι : Type} {s : FileSystem ι} {id : String}

theorem stored_add (hnext : ∀ id, s.sessions id ≠ some s.next) (id : String) (inode : Inode ι) :
    (s.add id inode).stored = Function.update s.stored id (some inode.bytes) := by
  funext id'
  by_cases hid : id' = id
  · subst hid
    simp [stored, add]
  · have hother : ∀ file, s.sessions id' = some file → file ≠ s.next := by
      intro file hfile hn
      exact hnext id' (hn ▸ hfile)
    simp only [stored, add, Function.update_of_ne hid]
    cases hfile : s.sessions id' with
    | none => rfl
    | some file => simp [hother file hfile]

/-- A file that is added and removed leaves no trace. -/
theorem stored_remove (hnext : ∀ id, s.sessions id ≠ some s.next) (habsent : s.sessions id = none) (f : Inode ι → Inode ι) :
    (((s.add id inode).setSession id none).setInode s.next f).stored = s.stored := by
  funext id'
  by_cases hid : id' = id
  · subst hid
    simp [stored, setSession, setInode, habsent]
  · have hother : ∀ file, s.sessions id' = some file → file ≠ s.next := by
      intro file hfile hn
      exact hnext id' (hn ▸ hfile)
    simp only [stored, setInode, setSession, add, Function.update_of_ne hid]
    cases hfile : s.sessions id' with
    | none => rfl
    | some file => simp [hother file hfile]

theorem lstat_add (s : FileSystem ι) (id : String) (inode : Inode ι) :
    (s.add id inode).lstat (.session id) = some ((s.add id inode).fstat s.next) := by
  simp [lstat, add]

end FileSystem

variable {ι : Type} [DecidableEq ι] {i : ι} {s t : FileSystem ι} {id : String} {inode : Inode ι}

/-- A request that looks, closes or removes. -/
def LooksOrRemoves : FsRequest → Prop
  | .symlinkMetadata _ | .metadata _ | .close _ | .removeFile _ => True
  | _ => False

theorem Faulty.exec {r : FsRequest} {a : FsAnswer r} (hr : LooksOrRemoves r) (hx : Faulty i s r a t) : Exec i s r a t := by
  cases hx with
  | works hx => exact hx
  | _ => exact hr.elim

/-- What looks or removes does not fail. -/
theorem alone_looks_bind {α : Type} {r : FsRequest} {a : FsAnswer r} {f : FsAnswer r → FsProgram α}
    {Q : FileSystem ι → α → Prop} (hr : LooksOrRemoves r) (h : s.sure i r = some (a, t))
    (hrest : Alone Faulty i Q t (f a)) : Alone Faulty i Q s (Program.request r >>= f) := by
  refine (alone_request_bind fun b u => ?_).mpr hrest
  rw [← Exec.answers_sure h]
  exact ⟨Faulty.exec hr, .works⟩

theorem identityMatches_faulty (hown : inode.Own) :
    Alone Faulty i (fun t b => t = s.add id inode ∧ b = true) (s.add id inode) (identityMatches s.next id) := by
  refine alone_looks_bind trivial rfl ?_
  refine alone_looks_bind trivial rfl ?_
  rw [FileSystem.lstat_add]
  refine ⟨rfl, ?_⟩
  simp [FileSystem.fstat, FileSystem.add, hown.kind, hown.nlink]

/-- **A new file is removed without a trace.** -/
theorem rollbackCreatedFile_faulty (hnext : ∀ id, s.sessions id ≠ some s.next) (habsent : s.sessions id = none)
    (hown : inode.Own) :
    Alone Faulty i (fun t _ => t.stored = s.stored) (s.add id inode) (rollbackCreatedFile s.next id) := by
  refine (identityMatches_faulty hown).bind fun t b ht => ?_
  obtain ⟨rfl, rfl⟩ := ht
  refine alone_looks_bind trivial rfl ?_
  rw [FileSystem.unlock, FileSystem.setInode_add, if_pos rfl]
  have hremove : ∀ inode : Inode ι, (s.add id inode).sure i (.removeFile id) =
      some (.ok (), ((s.add id inode).setSession id none).setInode s.next fun f => { f with nlink := f.nlink - 1 }) := by
    intro inode
    simp [FileSystem.sure, FileSystem.add]
  refine alone_looks_bind trivial (hremove _) ?_
  exact FileSystem.stored_remove hnext habsent _

/-! ## What may be done to a new file -/

section
variable {mode file : Nat} {bytes : Bytes} {d : Directory}

theorem Faulty.setPermissions_add {a : Except IoError Unit}
    (hx : Faulty i (s.add id inode) (.setPermissions (.session id) mode) a t) :
    ∃ mode', t = s.add id { inode with mode := mode' } := by
  cases hx with
  | works hx =>
    cases hx with
    | setFilePermissions _ file _ hfile =>
      obtain rfl : s.next = file := by simpa [FileSystem.add] using hfile
      exact ⟨mode, FileSystem.setInode_add ..⟩
    | setPermissionsAbsent _ _ hnone =>
      rw [FileSystem.lstat_add] at hnone
      cases hnone
  | setPermissions => exact ⟨inode.mode, rfl⟩
  | setPermissionsIgnored => exact ⟨inode.mode, rfl⟩

theorem Faulty.lock_add {a : Except IoError Unit} (hx : Faulty i (s.add id inode) (.lock s.next) a t) :
    ∃ exclusive shared, t = s.add id { inode with exclusive, shared } := by
  cases hx with
  | works hx =>
    cases hx with
    | lock => exact ⟨_, _, FileSystem.setInode_add ..⟩
  | lock => exact ⟨inode.exclusive, inode.shared, rfl⟩

theorem Faulty.writeAll_add {a : Except IoError Unit} (hx : Faulty i (s.add id inode) (.writeAll s.next bytes) a t) :
    ∃ written, t = s.add id { inode with bytes := inode.bytes ++ written } ∧ (a = .ok () → written = bytes) := by
  cases hx with
  | works hx =>
    cases hx with
    | writeAll => exact ⟨bytes, FileSystem.setInode_add .., fun _ => rfl⟩
  | writeAll _ _ n => exact ⟨bytes.take n, FileSystem.setInode_add .., fun h => by cases h⟩

theorem Faulty.syncAll_same {a : Except IoError Unit} (hx : Faulty i s (.syncAll file) a t) : t = s := by
  cases hx with
  | works hx => cases hx; rfl
  | syncAll => rfl

theorem Faulty.syncDirectory_same {a : Except IoError Unit} (hx : Faulty i s (.syncDirectory d) a t) : t = s := by
  cases hx with
  | works hx => cases hx; rfl
  | syncDirectory => rfl

end

/-! ## Creating and filling it -/

theorem safeCreatedFile_faulty (hown : inode.Own) :
    Alone Faulty i (fun t _ => ∃ mode, t = s.add id { inode with mode }) (s.add id inode) (safeCreatedFile s.next id) := by
  refine ⟨⟨.error .other, _, .setPermissions ..⟩, fun a t hx => ?_⟩
  obtain ⟨mode, rfl⟩ := Faulty.setPermissions_add hx
  cases a with
  | error e => exact ⟨mode, rfl⟩
  | ok _ =>
    have hown' : Inode.Own { inode with mode } := ⟨hown.kind, hown.nlink⟩
    refine (identityMatches_faulty hown').bind fun t b ht => ?_
    obtain ⟨rfl, rfl⟩ := ht
    refine alone_looks_bind trivial rfl ?_
    exact ⟨mode, rfl⟩

/-- There is a new file, or there is none. -/
theorem createPrivateFile_faulty (hnext : ∀ id, s.sessions id ≠ some s.next) :
    Alone Faulty i (fun t x => (∃ e, x = .error e ∧ t.stored = s.stored ∧ (e = .alreadyExists → t = s)) ∨
      x = .ok s.next ∧ s.sessions id = none ∧ ∃ inode : Inode ι, t = s.add id inode ∧ inode.Own ∧ inode.bytes = [])
      s (createPrivateFile id).run := by
  have hcreated : ∀ mode, s.sessions id = none → Alone Faulty i
      (fun t x => (∃ e, x = .error e ∧ t.stored = s.stored ∧ (e = .alreadyExists → t = s)) ∨
        x = .ok s.next ∧ s.sessions id = none ∧ ∃ inode : Inode ι, t = s.add id inode ∧ inode.Own ∧ inode.bytes = [])
      (s.create id mode) (do
        let file ← exit (.ok s.next : Except IoError Nat)
        if ← ExceptT.lift (safeCreatedFile file id) then return file
        else
          ExceptT.lift (rollbackCreatedFile file id)
          exit (.error .other) : FsCall IoError Nat).run := by
    intro mode habsent
    have hown : ∀ mode, Inode.Own (ι := ι)
        { kind := .file, mode, nlink := 1, bytes := [], exclusive := none, shared := fun _ => false } :=
      fun _ => ⟨rfl, rfl⟩
    refine alone_lift_bind (safeCreatedFile_faulty (hown mode)) fun t b ht => ?_
    obtain ⟨mode', rfl⟩ := ht
    cases b with
    | true => exact .inr ⟨rfl, habsent, _, rfl, hown mode', rfl⟩
    | false =>
      refine alone_lift_bind (rollbackCreatedFile_faulty hnext habsent (hown mode')) fun t _ ht => ?_
      exact .inl ⟨.other, rfl, ht, fun h => by cases h⟩
  refine ⟨⟨.error .other, s, .createNew ..⟩, fun a t hx => ?_⟩
  cases hx with
  | works hx =>
    cases hx with
    | createNew _ _ m hm habsent => exact hcreated _ habsent
    | createNewNoDirectory => exact .inl ⟨_, rfl, rfl, fun _ => rfl⟩
    | createNewPresent => exact .inl ⟨_, rfl, rfl, fun _ => rfl⟩
  | createNew _ _ e => exact .inl ⟨e, rfl, rfl, fun _ => rfl⟩
  | createNewMode _ _ mode' m hm habsent => exact hcreated mode' habsent

/-- A call that is attempted, and what comes after it. -/
theorem alone_attempt_bind {α : Type} {a : Except IoError Unit} {f : Unit → FsCall Unit α} {Q : FileSystem ι → Except Unit α → Prop}
    (hfail : Q s (.error ())) (hok : a = .ok () → Alone Faulty i Q s (f ()).run) :
    Alone Faulty i Q s (attempt a >>= f).run := by
  cases a with
  | error e => exact hfail
  | ok _ => exact hok rfl

/-- The first records are all there when nothing failed. -/
theorem publish_faulty (hown : inode.Own) (hempty : inode.bytes = []) (initial : InitialRecords) :
    Alone Faulty i (fun t x => ∃ inode : Inode ι, t = s.add id inode ∧ inode.Own ∧
      (x = .ok () → inode.bytes = initial.header ++ initial.user)) (s.add id inode) (publish s.next initial).run := by
  have hfails : ∀ inode : Inode ι, inode.Own → ∃ inode' : Inode ι, s.add id inode = s.add id inode' ∧ inode'.Own ∧
      ((.error () : Except Unit Unit) = .ok () → inode'.bytes = initial.header ++ initial.user) :=
    fun inode hown => ⟨inode, rfl, hown, fun h => by cases h⟩
  refine ⟨⟨.error .other, _, .lock ..⟩, fun a t hx => ?_⟩
  obtain ⟨exclusive, shared, rfl⟩ := Faulty.lock_add hx
  refine alone_attempt_bind (hfails _ ⟨hown.kind, hown.nlink⟩) fun _ => ?_
  refine ⟨⟨.error .other, _, .writeAll _ _ _ 0 _⟩, fun a t hx => ?_⟩
  obtain ⟨header, rfl, hheader⟩ := Faulty.writeAll_add hx
  refine alone_attempt_bind (hfails _ ⟨hown.kind, hown.nlink⟩) fun ha => ?_
  obtain rfl := hheader ha
  refine ⟨⟨.error .other, _, .writeAll _ _ _ 0 _⟩, fun a t hx => ?_⟩
  obtain ⟨user, rfl, huser⟩ := Faulty.writeAll_add hx
  refine alone_attempt_bind (hfails _ ⟨hown.kind, hown.nlink⟩) fun ha => ?_
  obtain rfl := huser ha
  refine ⟨⟨.error .other, _, .syncAll ..⟩, fun a t hx => ?_⟩
  obtain rfl := Faulty.syncAll_same hx
  refine alone_attempt_bind (hfails _ ⟨hown.kind, hown.nlink⟩) fun _ => ?_
  refine ⟨⟨.error .other, _, .syncDirectory ..⟩, fun a t hx => ?_⟩
  obtain rfl := Faulty.syncDirectory_same hx
  refine ⟨_, rfl, ⟨hown.kind, hown.nlink⟩, fun _ => ?_⟩
  simp [hempty]

/-! ## The ids that are drawn -/

def InitialRecords.ids (initial : InitialRecords) : List String :=
  [initial.sessionId, initial.operationId, initial.userEntryId]

/-- The first records that are drawn one after the other, as often as that. -/
def drawn (prompt : String) : Nat → Sources → List InitialRecords
  | 0, _ => []
  | retries + 1, sources =>
    match initialRecords sources prompt with
    | .error _ => []
    | .ok (initial, sources) => initial :: drawn prompt retries sources

section
variable {prompt : String} {retries : Nat} {src src' : Sources} {initial : InitialRecords}

theorem drawn_cons (h : initialRecords src prompt = .ok (initial, src')) :
    drawn prompt (retries + 1) src = initial :: drawn prompt retries src' := by
  rw [drawn, h]

/-- Three ids are drawn for the first records, and all three are different. -/
theorem initialRecords_ids (h : initialRecords src prompt = .ok (initial, src')) :
    src.ids = initial.ids ++ src'.ids ∧ ∃ session : Session, session.prompt = prompt ∧ initial = session.initial := by
  obtain ⟨session, rfl, ids, times, rfl⟩ := initialRecords_session h
  obtain ⟨-, -, rfl, rfl⟩ := session.initialRecords_sources.mp h
  exact ⟨rfl, session, rfl, rfl⟩

theorem length_drawn_le : (drawn prompt retries src).length ≤ retries := by
  induction retries generalizing src with
  | zero => exact Nat.le_refl 0
  | succ retries ih =>
    rw [drawn]
    cases initialRecords src prompt with
    | error e => exact Nat.zero_le _
    | ok x => exact Nat.succ_le_succ ih

/-- No id is drawn twice from the sources. -/
theorem ids_drawn : (drawn prompt retries src).flatMap InitialRecords.ids <+: src.ids := by
  induction retries generalizing src with
  | zero => exact List.nil_prefix
  | succ retries ih =>
    rw [drawn]
    cases h : initialRecords src prompt with
    | error e => exact List.nil_prefix
    | ok x =>
      rw [(initialRecords_ids h).1]
      exact (List.prefix_append_right_inj _).mpr ih

theorem drawn_session (h : initial ∈ drawn prompt retries src) :
    ∃ session : Session, session.prompt = prompt ∧ initial = session.initial := by
  induction retries generalizing src with
  | zero => cases h
  | succ retries ih =>
    rw [drawn] at h
    cases hinit : initialRecords src prompt with
    | error e =>
      rw [hinit] at h
      cases h
    | ok x =>
      rw [hinit] at h
      rcases List.mem_cons.mp h with rfl | h
      · exact (initialRecords_ids hinit).2
      · exact ih h

end

/-! ## Starting -/

/-- There is one more session, of the first records that were drawn for it,
or all are as they were. -/
def Added {ι : Type} (drawn : List InitialRecords) (s t : FileSystem ι) : Except CreateError FileWriter → Prop
  | .error _ => t.stored = s.stored
  | .ok w => ∃ initial ∈ drawn, (∃ rest, w.writer = initial.writer rest) ∧ s.stored initial.sessionId = none ∧
    t.stored = Function.update s.stored initial.sessionId (some (initial.header ++ initial.user))

theorem startFileWith_faulty (hnext : ∀ id, s.sessions id ≠ some s.next) (prompt : String) (retries : Nat) (src : Sources) :
    Alone Faulty i (Added (drawn prompt retries src) s) s (startFileWith prompt retries src).run := by
  induction retries generalizing src with
  | zero => exact alone_exit.mpr rfl
  | succ retries ih =>
    refine alone_exit_bind.mpr ⟨fun _ _ => rfl, fun x hinit => ?_⟩
    obtain ⟨initial, src'⟩ := x
    rw [drawn_cons hinit]
    refine alone_lift_bind (createPrivateFile_faulty hnext) fun t x h => ?_
    rcases h with ⟨e, rfl, hstored, hsame⟩ | ⟨rfl, habsent, inode, rfl, hown, hempty⟩
    · cases e with
      | alreadyExists =>
        obtain rfl := hsame rfl
        refine (ih src').mono fun u x hx => ?_
        cases x with
        | error e => exact hx
        | ok w =>
          obtain ⟨initial', hmem, hx⟩ := hx
          exact ⟨initial', List.mem_cons_of_mem _ hmem, hx⟩
      | notFound | other => exact hstored
    · refine alone_lift_bind (publish_faulty hown hempty initial) fun t x h => ?_
      obtain ⟨inode, rfl, hown, hbytes⟩ := h
      cases x with
      | ok _ =>
        refine ⟨initial, List.mem_cons_self, ⟨src', rfl⟩, ?_, ?_⟩
        · rw [FileSystem.stored, habsent, Option.map_none]
        · rw [FileSystem.stored_add hnext, hbytes rfl]
      | error _ =>
        refine alone_lift_bind (rollbackCreatedFile_faulty hnext habsent hown) fun t _ ht => ?_
        exact ht

/-- The directories are made and set up without a look at the sessions. -/
theorem Faulty.aboutDirectory {r : FsRequest} {a : FsAnswer r} (hr : AboutDirectory r) (hx : Faulty i s r a t) :
    t = { s with directories := t.directories } := by
  cases hx with
  | works hx =>
    cases hx with
    | setFilePermissions => exact hr.elim
    | createNew => exact hr.elim
    | lock => exact hr.elim
    | tryLockShared => exact hr.elim
    | writeAll => exact hr.elim
    | close => exact hr.elim
    | removeFile => exact hr.elim
    | _ => rfl
  | createNewMode => exact hr.elim
  | writeAll => exact hr.elim
  | _ => rfl

theorem Faulty.exists_aboutDirectory (i : ι) (s : FileSystem ι) {r : FsRequest} (hr : AboutDirectory r) :
    ∃ a t, Faulty i s r a t := by
  cases r with
  | symlinkMetadata path => exact ⟨_, _, .works (.symlinkMetadata ..)⟩
  | createDirAll d => exact ⟨_, _, .createDirAll _ _ .other⟩
  | setPermissions path mode => exact ⟨_, _, .setPermissions _ _ _ .other⟩
  | _ => exact hr.elim

theorem ensurePrivateDirectory_faulty (d : Directory) :
    Alone Faulty i (fun t _ => t.stored = s.stored ∧ t.sessions = s.sessions ∧ t.next = s.next) s
      (ensurePrivateDirectory d).run := by
  have hkeeps : Alone Faulty i (fun t _ => t = { s with directories := t.directories } ∧ True) s
      (ensurePrivateDirectory d).run := by
    refine (ensurePrivateDirectory_asks d).alone (J := fun t : FileSystem ι => t = { s with directories := t.directories })
      rfl ?_
    intro t r ht hr
    refine ⟨Faulty.exists_aboutDirectory i t hr, fun a u hx => ?_⟩
    rw [Faulty.aboutDirectory hr hx, ht]
  refine hkeeps.mono fun t _ ht => ?_
  rw [ht.1]
  exact ⟨rfl, rfl, rfl⟩

theorem startFile_faulty (hnext : ∀ id, s.sessions id ≠ some s.next) (src : Sources) (prompt : String) :
    Alone Faulty i (Added (drawn prompt createRetries src) s) s (startFile src prompt).run := by
  refine alone_lift_bind (ensurePrivateDirectory_faulty .application) fun u x hu => ?_
  obtain ⟨hstored, hsessions, hn⟩ := hu
  refine alone_exit_bind.mpr ⟨fun _ _ => hstored, fun _ _ => ?_⟩
  refine alone_lift_bind (ensurePrivateDirectory_faulty .sessions) fun v y hv => ?_
  rw [hstored, hsessions, hn] at hv
  obtain ⟨hstored, hsessions, hn⟩ := hv
  refine alone_exit_bind.mpr ⟨fun _ _ => hstored, fun _ _ => ?_⟩
  have hnext' : ∀ id, v.sessions id ≠ some v.next := by
    rw [hsessions, hn]
    exact hnext
  refine (startFileWith_faulty hnext' prompt createRetries src).mono fun t x hx => ?_
  unfold Added at hx ⊢
  rw [hstored] at hx
  exact hx

/-! ## How often it is tried -/

/-- The ids of the files that were to be created. -/
def created (h : FsHistory) : List String :=
  h.filterMap fun e => match e.1 with
    | .createNew id _ => some id
    | _ => none

/-- A request that creates no session file. -/
def Uncreating : FsRequest → Prop
  | .createNew _ _ => False
  | _ => True

/-- Files are created only under these ids, in this order. -/
def createsOnly (ids : List String) : Contract FsRequest FsAnswer :=
  .free fun h r => match r with
    | .createNew id _ => created h ++ [id] <+: ids
    | _ => True

section
variable {ids : List String} {h : FsHistory} {file : Nat}

theorem created_snoc (h : FsHistory) {r : FsRequest} (a : FsAnswer r) (hr : Uncreating r) : created (h ++ [⟨r, a⟩]) = created h := by
  cases r <;> first | exact hr.elim | simp [created]

theorem uncreating_meets {α : Type} {p : FsProgram α} (hp : p.Asks Uncreating fun _ => True) :
    p.Meets (createsOnly ids) (fun h' _ => created h' = created h) h := by
  refine (hp.meets (J := fun h' => created h' = created h) rfl ?_ ?_).mono fun h' _ hh => hh.1
  · intro h' r _ hr
    cases r <;> first | exact hr.elim | trivial
  · intro h' r a hh hr _
    rw [created_snoc h' a hr, hh]

theorem rollbackCreatedFile_asks : (rollbackCreatedFile file id).Asks Uncreating fun _ => True := by
  refine (identityMatches_asks trivial trivial).bind fun same _ => Program.asks_request_bind trivial fun _ => ?_
  cases same with
  | true => exact Program.asks_request_bind trivial fun _ => trivial
  | false => trivial

theorem safeCreatedFile_asks : (safeCreatedFile file id).Asks Uncreating fun _ => True := by
  refine Program.asks_request_bind trivial fun a => ?_
  cases a with
  | error e => trivial
  | ok _ =>
    refine (identityMatches_asks trivial trivial).bind fun same _ => ?_
    cases same with
    | true => exact privateFilePermissions_asks trivial
    | false => trivial

theorem publish_asks (initial : InitialRecords) : (publish file initial).run.Asks Uncreating fun _ => True := by
  refine asks_ask_bind trivial fun _ => asks_exit_bind fun _ => asks_ask_bind trivial fun _ => asks_exit_bind fun _ => ?_
  refine asks_ask_bind trivial fun _ => asks_exit_bind fun _ => asks_ask_bind trivial fun _ => asks_exit_bind fun _ => ?_
  refine asks_ask_bind trivial fun a => ?_
  cases a <;> trivial

/-- The file is tried once. -/
theorem createPrivateFile_creates (hid : created h ++ [id] <+: ids) :
    (createPrivateFile id).run.Meets (createsOnly ids) (fun h' _ => created h' = created h ++ [id]) h := by
  refine meets_ask_bind.mpr ⟨hid, fun a _ => ?_⟩
  have hrest : (do
      let file ← exit a
      if ← ExceptT.lift (safeCreatedFile file id) then return file
      else
        ExceptT.lift (rollbackCreatedFile file id)
        exit (.error .other) : FsCall IoError Nat).run.Asks Uncreating fun _ => True := by
    refine asks_exit_bind fun file => asks_lift_bind safeCreatedFile_asks fun safe => ?_
    cases safe with
    | true => trivial
    | false => exact asks_lift_bind rollbackCreatedFile_asks fun _ => trivial
  refine (uncreating_meets hrest).mono fun h' _ hh => ?_
  rw [hh]
  simp [created]

theorem startFileWith_creates {prompt : String} {retries : Nat} {src : Sources}
    (hids : created h ++ (drawn prompt retries src).map InitialRecords.sessionId <+: ids) :
    (startFileWith prompt retries src).run.Meets (createsOnly ids) (fun _ _ => True) h := by
  induction retries generalizing src h with
  | zero => trivial
  | succ retries ih =>
    refine meets_exit_bind.mpr ⟨fun _ _ => trivial, fun x hinit => ?_⟩
    obtain ⟨initial, src'⟩ := x
    rw [drawn_cons hinit, List.map_cons, List.append_cons] at hids
    refine meets_lift_bind (createPrivateFile_creates ((List.prefix_append _ _).trans hids)) fun h x hh => ?_
    rw [← hh] at hids
    cases x with
    | error e =>
      cases e with
      | alreadyExists => exact ih hids
      | notFound | other => trivial
    | ok file =>
      refine meets_lift_bind (uncreating_meets (publish_asks initial)) fun h x hh => ?_
      cases x with
      | ok _ => trivial
      | error _ => exact meets_lift_bind (uncreating_meets rollbackCreatedFile_asks) fun _ _ _ => trivial

theorem startFile_creates (src : Sources) (prompt : String) :
    (startFile src prompt).run.Meets (createsOnly ((drawn prompt createRetries src).map InitialRecords.sessionId))
      (fun _ _ => True) [] := by
  have hdirectory : ∀ d, (ensurePrivateDirectory d).run.Asks Uncreating fun _ => True := fun d =>
    (ensurePrivateDirectory_asks d).mono fun r hr => by cases r <;> first | exact hr.elim | trivial
  refine meets_lift_bind (uncreating_meets (hdirectory .application)) fun h _ hh => ?_
  refine meets_exit_bind.mpr ⟨fun _ _ => trivial, fun _ _ => ?_⟩
  refine meets_lift_bind (uncreating_meets (hdirectory .sessions)) fun h' _ hh' => ?_
  refine meets_exit_bind.mpr ⟨fun _ _ => trivial, fun _ _ => startFileWith_creates ?_⟩
  rw [hh', hh]
  exact List.prefix_refl _

/-- Whatever is answered, files are created as the contract has it. -/
theorem created_prefix {tr : FsHistory} (h : ∀ pre e post, tr = pre ++ e :: post → (createsOnly ids).guar pre e.1) :
    created tr <+: ids := by
  induction tr using List.reverseRecOn with
  | nil => exact List.nil_prefix
  | append_singleton tr e ih =>
    have hguar := h tr e [] rfl
    obtain ⟨r, a⟩ := e
    by_cases hr : Uncreating r
    · rw [created_snoc tr a hr]
      exact ih fun pre e' post he => h pre e' (post ++ [⟨r, a⟩]) (by rw [he]; simp)
    · cases r with
      | createNew id mode =>
        have hcreated : created (tr ++ [⟨.createNew id mode, a⟩]) = created tr ++ [id] := by simp [created]
        rw [hcreated]
        exact hguar
      | _ => exact absurd trivial hr

end

/-- **A start that fails leaves no trace**, whatever call failed: there is one
more session, of first records that were drawn for an id without a file, or
all are as they were. For each try three new ids are drawn. -/
theorem startFile_traceless (hnext : ∀ id, s.sessions id ≠ some s.next) (src : Sources) (prompt : String) :
    Alone Faulty i (Added (drawn prompt createRetries src) s) s (startFile src prompt).run ∧
    (∀ initial ∈ drawn prompt createRetries src, initial.ids.Nodup ∧
      ∃ session : Session, session.prompt = prompt ∧ initial = session.initial) ∧
    (drawn prompt createRetries src).length ≤ createRetries ∧
    (drawn prompt createRetries src).flatMap InitialRecords.ids <+: src.ids ∧
    ∀ tr q, (startFile src prompt).run.Follows tr q →
      created tr <+: (drawn prompt createRetries src).map InitialRecords.sessionId := by
  refine ⟨startFile_faulty hnext src prompt, fun initial hmem => ?_, length_drawn_le, ids_drawn, fun tr q hfollows => ?_⟩
  · obtain ⟨session, hprompt, rfl⟩ := drawn_session hmem
    exact ⟨session.distinct, session, hprompt, rfl⟩
  · refine created_prefix fun pre e post he => ?_
    subst he
    exact (startFile_creates src prompt).guar_free hfollows

/-- Directories in which there is one file. -/
def oneSession : FileSystem Unit where
  directories _ := some (Still.privateDirectory 0o700)
  sessions id := if id = Still.sampleId then some 0 else none
  inodes _ := sessionInode [lf] none
  next := 1

theorem startFile_traceless_sample : Alone Faulty () (fun t _ => t.stored Still.sampleId = some [lf]) oneSession
    (startFile (sampleSession.sources [] []) sampleSession.prompt).run := by
  have hnext : ∀ id, oneSession.sessions id ≠ some oneSession.next := by
    intro id
    show (if id = Still.sampleId then some 0 else none) ≠ some 1
    split <;> simp
  have hstored : oneSession.stored Still.sampleId = some [lf] := rfl
  refine (startFile_traceless hnext (sampleSession.sources [] []) sampleSession.prompt).1.mono fun t x hx => ?_
  cases x with
  | error e =>
    have hsame : t.stored = oneSession.stored := hx
    rw [hsame, hstored]
  | ok w =>
    obtain ⟨initial, -, -, habsent, hadded⟩ := hx
    have hid : Still.sampleId ≠ initial.sessionId := by
      intro hid
      rw [← hid, hstored] at habsent
      cases habsent
    rw [hadded, Function.update_of_ne hid, hstored]

end AgentHarness.SessionLog
