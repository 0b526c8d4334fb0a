/-
What each operation of the session log does when nobody else takes a step
before it returns: starting a session adds its file, ending it adds its last
line, rolling it back removes it, and reading changes nothing.
-/
import AgentHarness.SessionLog.Reading
import AgentHarness.SessionLog.RoundTrip
import AgentHarness.SessionLog.Still

namespace AgentHarness.SessionLog

open Text Except Interact

/-! ## Files, one at a time -/

namespace FileSystem
variable {ι : Type} {s : FileSystem ι} {file : Nat} {f g : Inode ι → Inode ι}

theorem setInode_setInode (s : FileSystem ι) (file : Nat) (f g : Inode ι → Inode ι) :
    (s.setInode file f).setInode file g = s.setInode file fun x => g (f x) := by
  simp [setInode]

@[simp] theorem setInode_same (s : FileSystem ι) (file : Nat) (f : Inode ι → Inode ι) :
    (s.setInode file f).inodes file = f (s.inodes file) := by
  simp [setInode]

theorem setInode_other {file' : Nat} (h : file' ≠ file) (s : FileSystem ι) (f : Inode ι → Inode ι) :
    (s.setInode file f).inodes file' = s.inodes file' := by
  simp [setInode, h]

theorem setInode_congr (h : f (s.inodes file) = g (s.inodes file)) : s.setInode file f = s.setInode file g := by
  simp [setInode, h]

/-- Nothing is set that is so already. -/
theorem setInode_eq_self (h : f (s.inodes file) = s.inodes file) : s.setInode file f = s := by
  simp [setInode, h]

end FileSystem

/-- The file of a session, with its writer or without. -/
def sessionInode {ι : Type} (bytes : Bytes) (owner : Option ι) : Inode ι where
  kind := .file
  mode := 0o600
  nlink := 1
  bytes
  exclusive := owner
  shared _ := false

namespace FileSystem
variable {ι : Type} {s : FileSystem ι} {id : String} {file : Nat} {bytes bytes' : Bytes} {owner owner' : Option ι}

/-- A session whose file is new. -/
def add (s : FileSystem ι) (id : String) (inode : Inode ι) : FileSystem ι :=
  { s with
    sessions := Function.update s.sessions id (some s.next)
    inodes := Function.update s.inodes s.next inode
    next := s.next + 1 }

theorem setInode_add (s : FileSystem ι) (id : String) (inode : Inode ι) (f : Inode ι → Inode ι) :
    (s.add id inode).setInode s.next f = s.add id (f inode) := by
  simp [setInode, add]

/-- The session's file is at its path, and is as a writer leaves it. -/
structure Holds (s : FileSystem ι) (id : String) (file : Nat) (bytes : Bytes) (owner : Option ι) : Prop where
  place : s.sessions id = some file
  inode : s.inodes file = sessionInode bytes owner

theorem holds_add (s : FileSystem ι) (id : String) (bytes : Bytes) (owner : Option ι) :
    (s.add id (sessionInode bytes owner)).Holds id s.next bytes owner := by
  constructor <;> simp [add]

theorem Holds.isFile (h : s.Holds id file bytes owner) : (s.fstat file).IsFile file := by
  constructor <;> simp [fstat, h.inode, sessionInode]
  decide

theorem Holds.lstat (h : s.Holds id file bytes owner) : s.lstat (.session id) = some (s.fstat file) := by
  simp [FileSystem.lstat, h.place]

/-- What is done to the file's contents and its lock leaves it where it is. -/
theorem Holds.set (h : s.Holds id file bytes owner) (bytes' : Bytes) (owner' : Option ι) :
    (s.setInode file fun _ => sessionInode bytes' owner').Holds id file bytes' owner' :=
  ⟨h.place, setInode_same ..⟩

end FileSystem

variable {ι : Type} [DecidableEq ι] {i : ι} {s s' : FileSystem ι} {id : String} {file : Nat}

/-! ## Requests with one answer -/

/-- The one thing that a request does, as far as this is settled by the files. -/
def FileSystem.sure (i : ι) (s : FileSystem ι) : (r : FsRequest) → Option (FsAnswer r × FileSystem ι)
  | .symlinkMetadata path => some (okOr (s.lstat path) .notFound, s)
  | .setPermissions (.directory d) mode => (s.directories d).map fun m => (.ok (), s.setDirectory d { m with mode })
  | .setPermissions (.session id) mode =>
    (s.sessions id).map fun file => (.ok (), s.setInode file fun f => { f with mode })
  | .createNew id mode =>
    match s.directories .sessions, s.sessions id with
    | some _, none => some (.ok s.next, s.create id mode)
    | some _, some _ => some (.error .alreadyExists, s)
    | none, _ => none
  | .openRead id => some (okOr (s.sessions id) .notFound, s)
  | .metadata file => some (.ok (s.fstat file), s)
  | .tryLockShared file =>
    match (s.inodes file).exclusive with
    | none => some (.ok (), s.lockShared i file)
    | some j => if j = i then none else some (.error .wouldBlock, s)
  | .writeAll file bytes => some (.ok (), s.setInode file fun f => { f with bytes := f.bytes ++ bytes })
  | .syncDirectory _ | .syncAll _ | .syncData _ => some (.ok (), s)
  | .read file limit => some (.ok ((s.inodes file).bytes.take limit), s)
  | .close file => some ((), s.unlock i file)
  | .removeFile id => (s.sessions id).map fun file =>
    (.ok (), (s.setSession id none).setInode file fun f => { f with nlink := f.nlink - 1 })
  | .createDirAll _ | .readDir _ | .lock _ => none

theorem Exec.answers {r : FsRequest} {a : FsAnswer r} (hx : Exec i s r a s')
    (hunique : ∀ b t, Exec i s r b t → b = a ∧ t = s') : Answers Exec i s r a s' := by
  intro b t
  constructor
  · exact hunique b t
  · intro hb
    rw [hb.1, hb.2]
    exact hx

theorem Exec.answers_setDirectoryPermissions {d : Directory} {m : Metadata} (hm : s.directories d = some m) (mode : Nat) :
    Answers Exec i s (.setPermissions (.directory d) mode) (.ok ()) (s.setDirectory d { m with mode }) := by
  refine Exec.answers (.setDirectoryPermissions _ _ _ _ hm) fun b t hx => ?_
  cases hx with
  | setDirectoryPermissions _ _ _ hm' =>
    rw [hm] at hm'
    cases hm'
    exact ⟨rfl, rfl⟩
  | setPermissionsAbsent _ _ hnone =>
    rw [FileSystem.lstat, hm] at hnone
    cases hnone

theorem Exec.answers_setFilePermissions (hfile : s.sessions id = some file) (mode : Nat) :
    Answers Exec i s (.setPermissions (.session id) mode) (.ok ()) (s.setInode file fun f => { f with mode }) := by
  refine Exec.answers (.setFilePermissions _ _ _ _ hfile) fun b t hx => ?_
  cases hx with
  | setFilePermissions _ _ _ hfile' =>
    rw [hfile] at hfile'
    cases hfile'
    exact ⟨rfl, rfl⟩
  | setPermissionsAbsent _ _ hnone =>
    rw [FileSystem.lstat, hfile] at hnone
    cases hnone

theorem Exec.answers_createNew {m : Metadata} (hm : s.directories .sessions = some m) (hnone : s.sessions id = none)
    (mode : Nat) : Answers Exec i s (.createNew id mode) (.ok s.next) (s.create id mode) := by
  refine Exec.answers (.createNew _ _ _ _ hm hnone) fun b t hx => ?_
  cases hx with
  | createNew => exact ⟨rfl, rfl⟩
  | createNewNoDirectory _ _ hm' =>
    rw [hm] at hm'
    cases hm'
  | createNewPresent _ _ file hfile =>
    rw [hnone] at hfile
    cases hfile

theorem Exec.answers_createNewPresent {m : Metadata} (hm : s.directories .sessions = some m)
    (hfile : s.sessions id = some file) (mode : Nat) : Answers Exec i s (.createNew id mode) (.error .alreadyExists) s := by
  refine Exec.answers (.createNewPresent _ _ _ _ hfile) fun b t hx => ?_
  cases hx with
  | createNew _ _ _ _ hnone =>
    rw [hfile] at hnone
    cases hnone
  | createNewNoDirectory _ _ hm' =>
    rw [hm] at hm'
    cases hm'
  | createNewPresent => exact ⟨rfl, rfl⟩

theorem Exec.answers_tryLockShared (hfree : (s.inodes file).exclusive = none) :
    Answers Exec i s (.tryLockShared file) (.ok ()) (s.lockShared i file) := by
  have hnone : ∀ j, j ≠ i → (s.inodes file).exclusive ≠ some j := by
    intro j _ hheld
    rw [hfree] at hheld
    cases hheld
  refine Exec.answers (.tryLockShared _ _ hnone) fun b t hx => ?_
  cases hx with
  | tryLockShared => exact ⟨rfl, rfl⟩
  | tryLockSharedHeld _ j hj hheld => exact absurd hheld (hnone j hj)

theorem Exec.answers_tryLockSharedHeld {j : ι} (hj : j ≠ i) (hheld : (s.inodes file).exclusive = some j) :
    Answers Exec i s (.tryLockShared file) (.error .wouldBlock) s := by
  refine Exec.answers (.tryLockSharedHeld _ _ j hj hheld) fun b t hx => ?_
  cases hx with
  | tryLockShared _ hnone => exact absurd hheld (hnone j hj)
  | tryLockSharedHeld => exact ⟨rfl, rfl⟩

theorem Exec.answers_removeFile (hfile : s.sessions id = some file) :
    Answers Exec i s (.removeFile id) (.ok ())
      ((s.setSession id none).setInode file fun f => { f with nlink := f.nlink - 1 }) := by
  refine Exec.answers (.removeFile _ _ _ hfile) fun b t hx => ?_
  cases hx with
  | removeFile _ _ hfile' =>
    rw [hfile] at hfile'
    cases hfile'
    exact ⟨rfl, rfl⟩
  | removeFileAbsent _ hnone =>
    rw [hfile] at hnone
    cases hnone

theorem Exec.answers_sure {r : FsRequest} {a : FsAnswer r} (h : s.sure i r = some (a, s')) : Answers Exec i s r a s' := by
  cases r with
  | createDirAll d | readDir d | lock file => cases h
  | symlinkMetadata path | openRead id | metadata file | writeAll file bytes | syncDirectory d | syncAll file
  | syncData file | read file limit | close file =>
    cases h
    refine Exec.answers (by constructor) fun b t hx => ?_
    cases hx
    exact ⟨rfl, rfl⟩
  | setPermissions path mode =>
    cases path with
    | directory d =>
      obtain ⟨m, hm, heq⟩ := Option.map_eq_some_iff.mp h
      cases heq
      exact Exec.answers_setDirectoryPermissions hm mode
    | session id =>
      obtain ⟨file, hfile, heq⟩ := Option.map_eq_some_iff.mp h
      cases heq
      exact Exec.answers_setFilePermissions hfile mode
  | createNew id mode =>
    simp only [FileSystem.sure] at h
    split at h
    · cases h
      exact Exec.answers_createNew ‹_› ‹_› mode
    · cases h
      exact Exec.answers_createNewPresent ‹_› ‹_› mode
    · cases h
  | tryLockShared file =>
    simp only [FileSystem.sure] at h
    split at h
    · cases h
      exact Exec.answers_tryLockShared ‹_›
    · split at h
      · cases h
      · cases h
        exact Exec.answers_tryLockSharedHeld ‹_› ‹_›
  | removeFile id =>
    obtain ⟨file, hfile, heq⟩ := Option.map_eq_some_iff.mp h
    cases heq
    exact Exec.answers_removeFile hfile

/-! ## Reading -/

namespace FileSystem

/-- The files, as they are while nothing changes. What is in the directory is
not said. -/
def still (s : FileSystem ι) : Still where
  directory d := okOr (s.directories d) .notFound
  names := .error .other
  session id := okOr (s.lstat (.session id)) .notFound
  opened id := okOr (s.sessions id) .notFound
  fstat file := .ok (s.fstat file)
  lock file :=
    match (s.inodes file).exclusive with
    | none => .ok ()
    | some _ => .error .wouldBlock
  contents file := (s.inodes file).bytes
  nodup _ h := by cases h
  absent _ _ h := by cases h
  length _ _ h := by cases h; rfl

/-- `i` has a shared lock on the file, or has none. -/
def sharing (s : FileSystem ι) (i : ι) (file : Nat) (b : Bool) : FileSystem ι :=
  s.setInode file fun f => { f with shared := Function.update f.shared i b }

/-- `i` has no lock on the file. -/
structure Unlocked (s : FileSystem ι) (i : ι) (file : Nat) : Prop where
  exclusive : (s.inodes file).exclusive ≠ some i
  shared : (s.inodes file).shared i = false

theorem fstat_sharing (s : FileSystem ι) (i : ι) (file : Nat) (b : Bool) : (s.sharing i file b).fstat = s.fstat := by
  funext file'
  by_cases h : file' = file
  · subst h
    simp [fstat, sharing]
  · simp [fstat, sharing, setInode_other h]

theorem lstat_sharing (s : FileSystem ι) (i : ι) (file : Nat) (b : Bool) (id : String) :
    (s.sharing i file b).lstat (.session id) = s.lstat (.session id) := by
  show (s.sessions id).map (s.sharing i file b).fstat = (s.sessions id).map s.fstat
  rw [fstat_sharing]

end FileSystem

/-- Inspecting an open file is answered as in files that hold still, and
changes the reader's lock only. -/
theorem inspecting_sure (hfree : s.Unlocked i file) {r : FsRequest} (hr : Inspecting file id r) (b : Bool) :
    ∃ a b', s.still.answer r = some a ∧ (s.sharing i file b).sure i r = some (a, s.sharing i file b') := by
  unfold Inspecting at hr
  split at hr
  · rename_i id'
    refine ⟨_, b, rfl, ?_⟩
    rw [FileSystem.sure, FileSystem.lstat_sharing]
    rfl
  · refine ⟨_, b, rfl, ?_⟩
    rw [FileSystem.sure, FileSystem.fstat_sharing]
    rfl
  · rename_i file'
    obtain rfl : file = file' := hr.symm
    have hexclusive : ((s.sharing i file b).inodes file).exclusive = (s.inodes file).exclusive := by
      simp [FileSystem.sharing]
    cases hx : (s.inodes file).exclusive with
    | none =>
      have hlock : (s.sharing i file b).lockShared i file = s.sharing i file true := by
        rw [FileSystem.lockShared, FileSystem.sharing, FileSystem.setInode_setInode]
        exact FileSystem.setInode_congr (by simp [hx])
      refine ⟨.ok (), true, ?_, ?_⟩
      · simp [Still.answer, FileSystem.still, hx]
      · simp [FileSystem.sure, hexclusive, hx, hlock]
    | some j =>
      have hj : j ≠ i := fun h => hfree.exclusive (h ▸ hx)
      refine ⟨.error .wouldBlock, b, ?_, ?_⟩
      · simp [Still.answer, FileSystem.still, hx]
      · simp [FileSystem.sure, hexclusive, hx, hj]
  · rename_i file' limit
    obtain rfl : file = file' := hr.symm
    refine ⟨_, b, rfl, ?_⟩
    simp [FileSystem.sure, FileSystem.sharing, FileSystem.still]
  · exact hr.elim

/-- An open file is inspected as one that holds still. -/
theorem inspectOpened_alone (hfree : s.Unlocked i file) (policy : ReadPolicy) :
    Alone Exec i (fun t x => (∃ b, t = s.sharing i file b) ∧ x = (s.still.inspectionOpened file id).under policy) s
      (inspectOpened file id policy) := by
  have hself : s = s.sharing i file false := by
    refine (FileSystem.setInode_eq_self ?_).symm
    simp [← hfree.shared]
  have hstill : s.still.Gives (inspectOpened file id policy) _ := Still.inspectOpened_gives
  have hrun : Alone Exec i (fun t x => ∃ _ : Unit, (∃ b, t = s.sharing i file b) ∧
      x = (s.still.inspectionOpened file id).under policy) s (inspectOpened file id policy) := by
    refine hstill.simulate (J := fun _ t => ∃ b, t = s.sharing i file b) (inspectOpened_asks file id policy)
      ⟨false, hself⟩ fun _ t r hJ hr _ => ?_
    obtain ⟨b, rfl⟩ := hJ
    obtain ⟨a, b', hanswer, hsure⟩ := inspecting_sure hfree hr b
    have hanswers := Exec.answers_sure hsure
    refine ⟨⟨a, _, (hanswers _ _).mpr ⟨rfl, rfl⟩⟩, fun a' t' hx => ?_⟩
    obtain ⟨rfl, rfl⟩ := (hanswers _ _).mp hx
    exact ⟨(), hanswer, b', rfl⟩
  refine hrun.mono fun t x h => ?_
  obtain ⟨_, h⟩ := h
  exact h

/-- Closing a file gives the reader's lock up. -/
theorem unlock_sharing (hfree : s.Unlocked i file) (b : Bool) : (s.sharing i file b).unlock i file = s := by
  rw [FileSystem.unlock, FileSystem.sharing, FileSystem.setInode_setInode]
  refine FileSystem.setInode_eq_self ?_
  simp [hfree.exclusive, ← hfree.shared]

/-- **A session is inspected as one that holds still**, and nothing is changed. -/
theorem inspectFile_alone (hfree : ∀ file, s.sessions id = some file → s.Unlocked i file) (policy : ReadPolicy) :
    Alone Exec i (fun t x => t = s ∧ x = (s.still.inspection id).under policy) s (inspectFile id policy) := by
  refine (alone_request_bind (Exec.answers_sure rfl)).mpr ?_
  unfold Still.inspection
  cases hfile : s.sessions id with
  | none =>
    have hlstat : s.lstat (.session id) = none := by rw [FileSystem.lstat, hfile]; rfl
    have hsession : s.still.session id = .error .notFound := by simp [FileSystem.still, hlstat]
    rw [hlstat, hsession]
    exact ⟨rfl, by cases policy <;> rfl⟩
  | some file =>
    have hlstat : s.lstat (.session id) = some (s.fstat file) := by rw [FileSystem.lstat, hfile]; rfl
    have hsession : s.still.session id = .ok (s.fstat file) := by simp [FileSystem.still, hlstat]
    have hopened : s.still.opened id = .ok file := by simp [FileSystem.still, hfile]
    rw [hlstat, hsession, hopened]
    by_cases hkind : (s.fstat file).kind ≠ .file
    · simp only [okOr_some, if_pos hkind]
      exact ⟨rfl, by cases policy <;> rfl⟩
    · simp only [okOr_some, if_neg hkind]
      refine (alone_request_bind (Exec.answers_sure rfl)).mpr ?_
      rw [hfile]
      refine (inspectOpened_alone (hfree file hfile) policy).bind fun t x h => ?_
      obtain ⟨⟨b, rfl⟩, hx⟩ := h
      refine (alone_request_bind (Exec.answers_sure rfl)).mpr ?_
      rw [unlock_sharing (hfree file hfile)]
      exact ⟨rfl, hx⟩

theorem validatePrivateDirectory_alone (d : Directory) :
    Alone Exec i (fun t x => t = s ∧ x = s.still.validate d) s (validatePrivateDirectory d).run := by
  refine (alone_ask_bind (Exec.answers_sure rfl)).mpr ?_
  have hdirectory : s.still.directory d = okOr (s.lstat (.directory d)) .notFound := rfl
  rw [Still.validate, hdirectory]
  cases (okOr (s.lstat (.directory d)) IoError.notFound).mapError mapOpenError with
  | error e => exact ⟨rfl, rfl⟩
  | ok m =>
    refine alone_exit_bind.mpr ⟨fun e he => (by cases he), fun m' hm => ?_⟩
    cases hm
    refine alone_exit_bind.mpr ⟨fun e he => ⟨rfl, ?_⟩, fun u hu => ?_⟩
    · rw [ok_bind, he, error_bind]
    · rw [ok_bind, hu, ok_bind]
      exact alone_exit.mpr ⟨rfl, by cases isPrivate m.mode <;> rfl⟩

/-- A session is shown as one that holds still, and nothing is changed. -/
theorem showSession_alone (hid : validId id = true) (hfree : ∀ file, s.sessions id = some file → s.Unlocked i file) :
    Alone Exec i (fun t x => t = s ∧ x = s.still.outcome id) s (showSession id).run := by
  have hvalid : (!validId id) = false := by rw [hid]; rfl
  rw [showSession, hvalid, if_neg Bool.false_ne_true, showFile, Still.outcome]
  refine alone_bind (validatePrivateDirectory_alone .application) (fun t e h => ?_) fun t u h => ?_
  · exact ⟨h.1, by rw [← h.2]; rfl⟩
  obtain ⟨rfl, hx⟩ := h
  rw [← hx, ok_bind]
  refine alone_bind (validatePrivateDirectory_alone .sessions) (fun t e h => ?_) fun t u h => ?_
  · exact ⟨h.1, by rw [← h.2]; rfl⟩
  obtain ⟨rfl, hx⟩ := h
  rw [← hx, ok_bind]
  refine alone_lift_bind (inspectFile_alone hfree .showing) fun t x h => ?_
  obtain ⟨rfl, rfl⟩ := h
  refine alone_exit.mpr ⟨rfl, ?_⟩
  show ((((t.still.inspection id).result.mapError FileInspectionError.shown)).mapError shownError) = _
  cases (t.still.inspection id).result with
  | error e => rfl
  | ok r => rfl

theorem showSession_same (hfree : ∀ file, s.sessions id = some file → s.Unlocked i file) :
    Alone Exec i (fun t _ => t = s) s (showSession id).run := by
  cases hid : validId id with
  | false =>
    have hvalid : (!validId id) = true := by rw [hid]; rfl
    rw [showSession, if_pos hvalid]
    exact alone_exit.mpr rfl
  | true => exact (showSession_alone hid hfree).mono fun _ _ h => h.1

theorem listDirectoryExists_same (d : Directory) :
    Alone Exec i (fun t _ => t = s) s (listDirectoryExists d).run := by
  refine alone_lift_bind (validatePrivateDirectory_alone d) fun t x h => ?_
  cases x with
  | ok u => exact alone_pure.mpr h.1
  | error e => cases e <;> exact h.1

theorem summarizeCandidates_same (hfree : ∀ id file, s.sessions id = some file → s.Unlocked i file) (ids : List String)
    (budget : ListReadBudget) : Alone Exec i (fun t _ => t = s) s (summarizeCandidates ids budget).run := by
  induction ids generalizing budget with
  | nil => exact alone_pure.mpr rfl
  | cons id ids ih =>
    refine alone_lift_bind (inspectFile_alone (hfree id) _) fun t x h => ?_
    obtain ⟨rfl, -⟩ := h
    obtain ⟨result, policy⟩ := x
    have hrest : ∀ front : List SessionSummary, Alone Exec i (fun t' _ => t' = t) t
        (do return front ++ (← summarizeCandidates ids (policy.budget budget)) : FsCall ListError (List SessionSummary)).run :=
      fun front => alone_bind (ih _) (fun _ _ h => h) fun _ _ h => alone_pure.mpr h
    rcases result with (e | _) | shown
    · exact hrest (listedError id e)
    · exact alone_exit.mpr rfl
    · exact hrest [shown.intoSummary]

/-- Listing changes nothing, whatever the directory is listed as. -/
theorem listFile_same (hfree : ∀ id file, s.sessions id = some file → s.Unlocked i file) (limits : ListLimits) :
    Alone Exec i (fun t _ => t = s) s (listFile limits).run := by
  refine alone_bind (listDirectoryExists_same .application) (fun _ _ h => h) fun t b h => ?_
  subst h
  cases b with
  | false => exact alone_pure.mpr rfl
  | true =>
  refine alone_bind (listDirectoryExists_same .sessions) (fun _ _ h => h) fun t b h => ?_
  subst h
  cases b with
  | false => exact alone_pure.mpr rfl
  | true =>
  have hrest : ∀ directory, Alone Exec i (fun t' _ => t' = t) t (do
      let candidates ← exit (collectCandidateIds directory limits)
      let summaries ← summarizeCandidates candidates { used := 0, limit := limits.readBytes }
      return summaries.mergeSort summaryLe : FsCall ListError (List SessionSummary)).run := by
    intro directory
    refine alone_exit_bind.mpr ⟨fun _ _ => rfl, fun candidates _ => ?_⟩
    exact alone_bind (summarizeCandidates_same hfree _ _) (fun _ _ h => h) fun _ _ h => alone_pure.mpr h
  refine ⟨?_, fun a t' hx => ?_⟩
  · cases hdirectory : t.directories .sessions with
    | none => exact ⟨_, _, .readDirAbsent _ _ hdirectory⟩
    | some m => exact ⟨_, _, .readDir _ _ m [] hdirectory⟩
  · have hsame : t' = t := by
      cases hx <;> rfl
    subst hsame
    cases a with
    | error e => exact alone_exit.mpr rfl
    | ok directory => exact hrest directory

/-! ## A new file -/

section
variable {bytes : Bytes} {owner : Option ι}

theorem identityMatches_alone (h : s.Holds id file bytes owner) :
    Alone Exec i (fun t b => t = s ∧ b = true) s (identityMatches file id) := by
  refine (alone_request_bind (Exec.answers_sure rfl)).mpr ?_
  refine (alone_request_bind (Exec.answers_sure rfl)).mpr ?_
  rw [h.lstat]
  exact ⟨rfl, identityMatches_true h.isFile h.isFile⟩

theorem safeCreatedFile_alone (h : s.Holds id file bytes owner) :
    Alone Exec i (fun t b => t = s ∧ b = true) s (safeCreatedFile file id) := by
  have hmode : s.setInode file (fun f => { f with mode := 0o600 }) = s := by
    refine FileSystem.setInode_eq_self ?_
    rw [h.inode]
    rfl
  have hsure : s.sure i (.setPermissions (.session id) 0o600) = some (.ok (), s) := by
    rw [FileSystem.sure, h.place, Option.map_some, hmode]
  refine (alone_request_bind (Exec.answers_sure hsure)).mpr ((identityMatches_alone h).bind fun t b ht => ?_)
  obtain ⟨rfl, rfl⟩ := ht
  refine (alone_request_bind (Exec.answers_sure rfl)).mpr ?_
  exact ⟨rfl, h.isFile.mode⟩

/-- A file is created unless there is one. -/
theorem createPrivateFile_alone {m : Metadata} (hdirectory : s.directories .sessions = some m) :
    Alone Exec i (fun t x => (x = .error .alreadyExists ∧ s.sessions id ≠ none ∧ t = s) ∨
      x = .ok s.next ∧ s.sessions id = none ∧ t = s.add id (sessionInode [] none)) s (createPrivateFile id).run := by
  cases hfile : s.sessions id with
  | some file =>
    have hsure : s.sure i (.createNew id 0o600) = some (.error .alreadyExists, s) := by
      simp only [FileSystem.sure, hdirectory, hfile]
    exact (alone_ask_bind (Exec.answers_sure hsure)).mpr (.inl ⟨rfl, nofun, rfl⟩)
  | none =>
    have hsure : s.sure i (.createNew id 0o600) = some (.ok s.next, s.add id (sessionInode [] none)) := by
      simp only [FileSystem.sure, hdirectory, hfile]
      rfl
    refine (alone_ask_bind (Exec.answers_sure hsure)).mpr ?_
    refine alone_lift_bind (safeCreatedFile_alone (s.holds_add id [] none)) fun t b ht => ?_
    obtain ⟨rfl, rfl⟩ := ht
    exact .inr ⟨rfl, rfl, rfl⟩

/-- A file nobody has locked is locked. -/
theorem lock_answers (h : s.Holds id file bytes none) :
    Answers Exec i s (.lock file) (.ok ()) (s.setInode file fun _ => sessionInode bytes (some i)) := by
  have hlock : s.lockExclusive i file = s.setInode file fun _ => sessionInode bytes (some i) := by
    refine FileSystem.setInode_congr ?_
    rw [h.inode]
    simp [sessionInode]
  have hfree : ∀ j, j ≠ i → (s.inodes file).exclusive ≠ some j ∧ (s.inodes file).shared j = false := by
    intro j _
    rw [h.inode]
    exact ⟨nofun, rfl⟩
  intro a t
  constructor
  · intro hx
    cases hx
    exact ⟨rfl, hlock⟩
  · intro ha
    rw [ha.1, ha.2, ← hlock]
    exact .lock _ _ hfree

/-- What is written comes after what is there. -/
theorem writeAll_sure (h : s.Holds id file bytes owner) (more : Bytes) :
    s.sure i (.writeAll file more) = some (.ok (), s.setInode file fun _ => sessionInode (bytes ++ more) owner) := by
  rw [FileSystem.sure, FileSystem.setInode_congr (g := fun _ => sessionInode (bytes ++ more) owner)]
  rw [h.inode]
  rfl

/-- The first records are written under the lock. -/
theorem publish_alone (h : s.Holds id file [] none) (initial : InitialRecords) :
    Alone Exec i (fun t x => x = .ok () ∧ t = s.setInode file fun _ => sessionInode (initial.header ++ initial.user) (some i))
      s (publish file initial).run := by
  refine (alone_ask_bind (lock_answers h)).mpr ?_
  have hlocked := h.set [] (some i)
  refine (alone_ask_bind (Exec.answers_sure (writeAll_sure hlocked initial.header))).mpr ?_
  have hheader := hlocked.set initial.header (some i)
  refine (alone_ask_bind (Exec.answers_sure (writeAll_sure hheader initial.user))).mpr ?_
  refine (alone_ask_bind (Exec.answers_sure rfl)).mpr ?_
  refine (alone_ask_bind (Exec.answers_sure rfl)).mpr ?_
  refine ⟨rfl, ?_⟩
  rw [FileSystem.setInode_setInode, FileSystem.setInode_setInode]

end

/-! ## The directories -/

/-- The directory is there, and nobody else is let in. -/
def FileSystem.Private {ι : Type} (s : FileSystem ι) (d : Directory) : Prop :=
  ∃ m, s.directories d = some m ∧ m.kind = .directory ∧ isPrivate m.mode = true

/-- Only directories differ, and none that was private is not. -/
structure FileSystem.Prepared {ι : Type} (s t : FileSystem ι) : Prop where
  same : t = { s with directories := t.directories }
  kept : ∀ d, s.Private d → t.Private d

namespace FileSystem.Prepared
variable {ι : Type} {s t u : FileSystem ι} {d : Directory} {m : Metadata}

theorem refl (s : FileSystem ι) : s.Prepared s := ⟨rfl, fun _ h => h⟩

theorem trans (hst : s.Prepared t) (htu : t.Prepared u) : s.Prepared u := by
  refine ⟨?_, fun d h => htu.kept d (hst.kept d h)⟩
  rw [htu.same, hst.same]

theorem setDirectory (h : s.Private d → m.kind = .directory ∧ isPrivate m.mode = true) :
    s.Prepared (s.setDirectory d m) := by
  refine ⟨rfl, fun d' hd' => ?_⟩
  by_cases hd : d' = d
  · subst hd
    exact ⟨m, by simp [FileSystem.setDirectory], h hd'⟩
  · obtain ⟨m', hm', hprivate⟩ := hd'
    exact ⟨m', by simp [FileSystem.setDirectory, hd, hm'], hprivate⟩

end FileSystem.Prepared

theorem createMissingDirectory_alone (d : Directory) :
    Alone Exec i (fun t x => x = .ok () ∧ (∃ m, t = s.setDirectory d m ∧ m.kind = .directory) ∨
      x ≠ .ok () ∧ t = s ∧ ∃ m, s.directories d = some m ∧ m.kind ≠ .directory) s (createMissingDirectory d).run := by
  refine (alone_ask_bind (Exec.answers_sure rfl)).mpr ?_
  have hlstat : s.lstat (.directory d) = s.directories d := rfl
  rw [hlstat]
  cases hd : s.directories d with
  | some m =>
    have hsame : s = s.setDirectory d m := by simp [FileSystem.setDirectory, ← hd]
    refine alone_exit.mpr ?_
    by_cases hkind : m.kind = .directory
    · exact .inl ⟨by simp [hkind], m, hsame, hkind⟩
    · exact .inr ⟨by simp [hkind, rejectIf], rfl, m, rfl, hkind⟩
  | none =>
    refine ⟨⟨_, _, .createDirAll _ _ 0 hd⟩, fun a t hx => ?_⟩
    cases hx with
    | createDirAll _ mode _ => exact .inl ⟨rfl, _, rfl, rfl⟩
    | createDirAllPresent _ m hm _ =>
      rw [hd] at hm
      cases hm

/-- The directory is private then, unless something else is in its place. -/
theorem ensurePrivateDirectory_alone (d : Directory) :
    Alone Exec i (fun t x => x = .ok () ∧ (∃ m, t = s.setDirectory d m ∧ m.kind = .directory ∧ isPrivate m.mode = true) ∨
      x ≠ .ok () ∧ t = s ∧ ∃ m, s.directories d = some m ∧ m.kind ≠ .directory) s (ensurePrivateDirectory d).run := by
  refine alone_bind (createMissingDirectory_alone d) (fun t e ht => ?_) fun t u ht => ?_
  · obtain ⟨he, -⟩ | ⟨-, ht⟩ := ht
    · cases he
    · exact .inr ⟨nofun, ht⟩
  obtain ⟨-, m, rfl, hkind⟩ | ⟨hne, -⟩ := ht
  · refine (alone_ask_bind (Exec.answers_sure rfl)).mpr ?_
    have hd : (s.setDirectory d m).directories d = some m := Function.update_self ..
    have hlstat : (s.setDirectory d m).lstat (.directory d) = some m := hd
    rw [hlstat]
    refine alone_exit_bind.mpr ⟨fun e he => (nomatch he), fun m' hm' => ?_⟩
    cases hm'
    have hno : (m.kind != .directory) = false := by simp [hkind]
    rw [hno]
    refine alone_exit_bind.mpr ⟨fun e he => (nomatch he), fun u hu => ?_⟩
    have hsure : (s.setDirectory d m).sure i (.setPermissions (.directory d) 0o700) =
        some (.ok (), s.setDirectory d { m with mode := 0o700 }) := by
      rw [FileSystem.sure, hd, Option.map_some]
      simp [FileSystem.setDirectory]
    have hmode : isPrivate 0o700 = true := by decide
    exact (alone_ask_bind (Exec.answers_sure hsure)).mpr (.inl ⟨rfl, _, rfl, hkind, hmode⟩)
  · exact absurd rfl hne

theorem ensurePrivateDirectory_prepares (d : Directory) :
    Alone Exec i (fun t x => s.Prepared t ∧ (x = .ok () → t.Private d)) s (ensurePrivateDirectory d).run := by
  refine (ensurePrivateDirectory_alone d).mono fun t x h => ?_
  obtain ⟨-, m, rfl, hprivate⟩ | ⟨hne, rfl, -⟩ := h
  · exact ⟨.setDirectory fun _ => hprivate, fun _ => ⟨m, Function.update_self .., hprivate⟩⟩
  · exact ⟨.refl t, fun hx => absurd hx hne⟩

/-! ## What is shown -/

theorem FileSystem.Private.validate {ι : Type} {s : FileSystem ι} {d : Directory} (h : s.Private d) :
    s.still.validate d = .ok () := by
  obtain ⟨m, hm, hkind, hmode⟩ := h
  have hdirectory : s.still.directory d = .ok m := by simp [FileSystem.still, hm]
  simp only [Still.validate, hdirectory, bind_ok_iff, rejectIf_ok_iff, bne_eq_false_iff_eq, Bool.not_eq_false']
  exact ⟨m, rfl, (), hkind, hmode⟩

section
variable {ι : Type} {s : FileSystem ι} {id : String} {file : Nat} {bytes : Bytes} {owner : Option ι}

/-- A session without a file is missing. -/
theorem FileSystem.outcome_absent (hprivate : ∀ d, s.Private d) (h : s.sessions id = none) :
    s.still.outcome id = .error .missing := by
  have hsession : s.still.session id = .error .notFound := by simp [FileSystem.still, FileSystem.lstat, h]
  rw [Still.outcome, (hprivate _).validate, (hprivate _).validate, ok_bind, ok_bind, Still.inspection, hsession]
  rfl

theorem FileSystem.Holds.session (h : s.Holds id file bytes owner) : s.still.session id = .ok (s.fstat file) := by
  simp [FileSystem.still, h.lstat]

/-- An open file of a session is read unless somebody writes it. -/
theorem FileSystem.Holds.size (h : s.Holds id file bytes owner) (hsize : bytes.length ≤ maxSessionBytes) :
    s.still.size file id = if owner.isSome then .error .busy else .ok bytes.length := by
  have hsame : s.still.same file id = true := by
    rw [Still.same, h.session]
    exact identityMatches_true h.isFile h.isFile
  have hunshared : s.still.unshared file = true := h.isFile.mode
  have hlock : s.still.lock file = if owner.isSome then .error .wouldBlock else .ok () := by
    simp only [FileSystem.still, h.inode, sessionInode]
    cases owner <;> rfl
  have hcontents : s.still.contents file = bytes := by
    simp only [FileSystem.still, h.inode, sessionInode]
  have hfits : decide (bytes.length > maxSessionBytes) = false := decide_eq_false (Nat.not_lt.mpr hsize)
  rw [Still.size, hsame, hunshared, hlock, hcontents, hfits]
  cases owner <;> rfl

/-- A session that somebody writes is busy; any other is shown as it is. -/
theorem FileSystem.Holds.outcome (h : s.Holds id file bytes owner) (hprivate : ∀ d, s.Private d)
    (hsize : bytes.length ≤ maxSessionBytes) :
    s.still.outcome id = if owner.isSome then .error .busy else (project bytes id).mapError mapProjectionError := by
  have hopened : s.still.opened id = .ok file := by simp [FileSystem.still, h.place]
  have hshown : s.still.shown file id = (project bytes id).mapError mapProjectionError := by
    simp only [Still.shown, FileSystem.still, h.inode, sessionInode]
  rw [Still.outcome, (hprivate _).validate, (hprivate _).validate, ok_bind, ok_bind, Still.inspection, h.session, hopened]
  simp only [h.isFile.kind, ne_eq, not_true_eq_false, if_false, Still.inspectionOpened]
  have hread := h.size hsize
  split
  · rename_i e he
    cases owner with
    | none => cases he.symm.trans hread
    | some i =>
      cases he.symm.trans hread
      rfl
  · rename_i size hok
    cases owner with
    | none => exact hshown
    | some i => cases hok.symm.trans hread

end

/-! ## Starting -/

/-- The file's writer, and the session it writes. -/
structure FileWriter.Writes (w : FileWriter) (session : Session) : Prop where
  writer : ∃ ids times, w.writer = session.writer ids times
  fits : session.LinesFit none
  size : (session.bytes none).length ≤ maxSessionBytes

theorem FileWriter.Writes.sessionId {w : FileWriter} {session : Session} (h : w.Writes session) :
    w.writer.sessionId = session.sessionId := by
  obtain ⟨ids, times, hw⟩ := h.writer
  rw [hw]
  rfl

/-- A session that is new in the files, and its writer. -/
structure Starts (i : ι) (prompt : String) (s t : FileSystem ι) (w : FileWriter) (session : Session) : Prop where
  prompt : session.prompt = prompt
  writes : w.Writes session
  file : w.file = s.next
  absent : s.sessions session.sessionId = none
  added : t = s.add session.sessionId (sessionInode (session.bytes none) (some i))

theorem startFileWith_alone {m : Metadata} (hdirectory : s.directories .sessions = some m) (prompt : String) (retries : Nat)
    (src : Sources) :
    Alone Exec i (fun t x => (∃ e, x = .error e ∧ t = s) ∨ ∃ w session, x = .ok w ∧ Starts i prompt s t w session) s
      (startFileWith prompt retries src).run := by
  induction retries generalizing src with
  | zero => exact .inl ⟨_, rfl, rfl⟩
  | succ retries ih =>
    refine alone_exit_bind.mpr ⟨fun e _ => .inl ⟨e, rfl, rfl⟩, fun x hinit => ?_⟩
    obtain ⟨initial, src'⟩ := x
    obtain ⟨session, rfl, ids, times, rfl⟩ := initialRecords_session hinit
    obtain ⟨hfit, hsize, rfl, rfl⟩ := session.initialRecords_sources.mp hinit
    refine alone_lift_bind (createPrivateFile_alone hdirectory) fun t x h => ?_
    rcases h with ⟨rfl, -, rfl⟩ | ⟨rfl, habsent, rfl⟩
    · exact ih _
    refine alone_lift_bind (publish_alone (s.holds_add _ _ _) session.initial) fun t x h => ?_
    obtain ⟨rfl, rfl⟩ := h
    rw [FileSystem.setInode_add, session.initial_bytes]
    exact .inr ⟨_, session, rfl, rfl, ⟨⟨ids, times, rfl⟩, hfit, hsize⟩, rfl, habsent, rfl⟩

/-- **Starting a session adds it**, under an id that there is no file for, or
leaves all files as they are. -/
theorem startFile_alone (src : Sources) (prompt : String) :
    Alone Exec i (fun t x => ∃ u, s.Prepared u ∧ ((∃ e, x = .error e ∧ t = u) ∨
      ∃ w session, x = .ok w ∧ (∀ d, u.Private d) ∧ Starts i prompt u t w session)) s (startFile src prompt).run := by
  refine alone_lift_bind (ensurePrivateDirectory_prepares .application) fun u x h => ?_
  obtain ⟨hu, hprivate⟩ := h
  refine alone_exit_bind.mpr ⟨fun e _ => ⟨u, hu, .inl ⟨e, rfl, rfl⟩⟩, fun _ hx => ?_⟩
  cases x with
  | error e => cases hx
  | ok _ =>
  have happlication := hprivate rfl
  refine alone_lift_bind (ensurePrivateDirectory_prepares .sessions) fun v x h => ?_
  obtain ⟨hv, hprivate⟩ := h
  refine alone_exit_bind.mpr ⟨fun e _ => ⟨v, hu.trans hv, .inl ⟨e, rfl, rfl⟩⟩, fun _ hx => ?_⟩
  cases x with
  | error e => cases hx
  | ok _ =>
  have hsessions := hprivate rfl
  obtain ⟨m, hm, -⟩ := hsessions
  refine (startFileWith_alone hm prompt createRetries src).mono fun t x h => ⟨v, hu.trans hv, ?_⟩
  rcases h with h | ⟨w, session, rfl, h⟩
  · exact .inl h
  · refine .inr ⟨w, session, rfl, fun d => ?_, h⟩
    cases d with
    | application => exact hv.kept _ happlication
    | sessions => exact hprivate rfl

/-! ## Ending -/

/-- The file after an append, which may be refused. -/
def appended (file : Bytes) (x : Except AppendError Bytes) : Bytes := x.toOption.getD file

section
variable {bytes : Bytes} {w : FileWriter}

theorem appendTerminal_alone (h : s.Holds w.writer.sessionId w.file bytes (some i)) (record : Record) :
    Alone Exec i (fun t x => x = (SessionWriter.appendTerminal bytes record).map (fun _ => ()) ∧
      t = s.setInode w.file fun _ => sessionInode (appended bytes (SessionWriter.appendTerminal bytes record)) (some i)) s
      (w.appendTerminal record).run := by
  have hsame : s = s.setInode w.file fun _ => sessionInode bytes (some i) := (FileSystem.setInode_eq_self h.inode.symm).symm
  unfold SessionWriter.appendTerminal
  refine alone_exit_bind.mpr ⟨fun e he => ?_, fun line hline => ?_⟩
  · rw [he]
    exact ⟨rfl, hsame⟩
  refine alone_lift_bind (identityMatches_alone h) fun t b ht => ?_
  obtain ⟨rfl, rfl⟩ := ht
  rw [hline, ok_bind]
  refine (alone_ask_bind (Exec.answers_sure rfl)).mpr ?_
  have hlen : (t.fstat w.file).len = bytes.length := by
    rw [FileSystem.fstat, h.inode]
    rfl
  refine alone_exit_bind.mpr ⟨fun e he => (nomatch he), fun m hm => ?_⟩
  cases hm
  rw [hlen]
  refine alone_exit_bind.mpr ⟨fun e he => ?_, fun u hu => ?_⟩
  · rw [he]
    exact ⟨rfl, hsame⟩
  refine (alone_ask_bind (Exec.answers_sure (writeAll_sure h line))).mpr ?_
  refine (alone_ask_bind (Exec.answers_sure rfl)).mpr ?_
  rw [hu]
  exact ⟨rfl, rfl⟩

/-- Either way to end a session. -/
def FileWriter.append (w : FileWriter) (outcome : ProjectedTerminal) : FsProgram (Except AppendError Unit) :=
  match outcome with
  | .assistant text => w.appendAssistant text
  | .failure code => w.appendFailure code

theorem close_sure (h : s.Holds id file bytes (some i)) :
    s.sure i (.close file) = some ((), s.setInode file fun _ => sessionInode bytes none) := by
  have hunlock : s.unlock i file = s.setInode file fun _ => sessionInode bytes none := by
    refine FileSystem.setInode_congr ?_
    rw [h.inode]
    simp [sessionInode]
  exact congrArg (fun t => some ((), t)) hunlock

theorem finish_alone (h : s.Holds w.writer.sessionId w.file bytes (some i)) (record : Except AppendError Record) :
    Alone Exec i (fun t x => x = (record >>= SessionWriter.appendTerminal bytes).map (fun _ => ()) ∧
      t = s.setInode w.file fun _ => sessionInode (appended bytes (record >>= SessionWriter.appendTerminal bytes)) none) s
      (w.finish record) := by
  have happend : Alone Exec i (fun t x => x = (record >>= SessionWriter.appendTerminal bytes).map (fun _ => ()) ∧
      t = s.setInode w.file fun _ => sessionInode (appended bytes (record >>= SessionWriter.appendTerminal bytes)) (some i)) s
      (do w.appendTerminal (← exit record) : FsCall AppendError Unit).run := by
    refine alone_exit_bind.mpr ⟨fun e he => ?_, fun r hr => ?_⟩
    · rw [he]
      exact ⟨rfl, (FileSystem.setInode_eq_self h.inode.symm).symm⟩
    · rw [hr]
      exact appendTerminal_alone h r
  refine happend.bind fun t x ht => ?_
  obtain ⟨hx, rfl⟩ := ht
  refine (alone_request_bind (Exec.answers_sure (close_sure (h.set _ _)))).mpr ⟨hx, ?_⟩
  rw [FileSystem.setInode_setInode]

/-- **Appending puts the line of the end into the file** and gives the lock
up; if it is refused, it only gives the lock up. -/
theorem append_alone (h : s.Holds w.writer.sessionId w.file bytes (some i)) (outcome : ProjectedTerminal) :
    Alone Exec i (fun t x => x = (Session.append w.writer outcome bytes).map (fun _ => ()) ∧
      t = s.setInode w.file fun _ => sessionInode (appended bytes (Session.append w.writer outcome bytes)) none) s
      (w.append outcome) := by
  cases outcome <;> exact finish_alone h _

theorem removeFile_sure (h : s.Holds id file bytes none) :
    s.sure i (.removeFile id) =
      some (.ok (), (s.setSession id none).setInode file fun _ => { sessionInode bytes none with nlink := 0 }) := by
  have hunlink : ((s.setSession id none).setInode file fun f => { f with nlink := f.nlink - 1 }) =
      (s.setSession id none).setInode file fun _ => { sessionInode bytes none with nlink := 0 } := by
    refine FileSystem.setInode_congr ?_
    have hinode : (s.setSession id none).inodes file = s.inodes file := rfl
    rw [hinode, h.inode]
    rfl
  rw [FileSystem.sure, h.place, Option.map_some, hunlink]

/-- Rolling back gives the lock up and removes the file. -/
theorem rollback_alone (h : s.Holds w.writer.sessionId w.file bytes (some i)) :
    Alone Exec i (fun t x => x = .ok () ∧ t = (s.setSession w.writer.sessionId none).setInode w.file fun _ =>
      { sessionInode bytes none with nlink := 0 }) s w.rollback.run := by
  refine alone_lift_bind (identityMatches_alone h) fun t b ht => ?_
  obtain ⟨rfl, rfl⟩ := ht
  refine (alone_ask_bind (Exec.answers_sure (close_sure h))).mpr ?_
  have hclosed := h.set bytes none
  refine alone_exit_bind.mpr ⟨fun e he => (nomatch he), fun _ _ => ?_⟩
  refine (alone_ask_bind (Exec.answers_sure (removeFile_sure hclosed))).mpr ?_
  refine alone_exit_bind.mpr ⟨fun e he => (nomatch he), fun _ _ => ?_⟩
  refine (alone_ask_bind (Exec.answers_sure rfl)).mpr ⟨rfl, ?_⟩
  simp [FileSystem.setSession, FileSystem.setInode, sessionInode]

end

end AgentHarness.SessionLog
