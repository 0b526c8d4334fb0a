/-
The file system under the session log, one request for each call: the two
directories, the session files by their ids, and the locks on open files.
`Exec` is what the calls do when none of them fails of itself; parties that
never agree otherwise share only this.

A handle is the inode it is open on. A party has at most one file open at a
time, so its locks are known by the party.
-/
import Mathlib.Data.Fintype.Option
import AgentHarness.Lib.Call
import AgentHarness.Lib.Except
import AgentHarness.Lib.Interleave
import AgentHarness.Lib.Text

namespace AgentHarness.SessionLog

open Text Except Interact

/-! ## Requests -/

inductive FileKind where
  | file
  | directory
  | symlink
  | other
  deriving DecidableEq, Repr

structure Metadata where
  kind : FileKind
  mode : Nat
  ino : Nat
  nlink : Nat
  len : Nat
  deriving DecidableEq, Repr

inductive IoError where
  | notFound
  | alreadyExists
  | other
  deriving DecidableEq, Repr

inductive TryLockError where
  | wouldBlock
  | error
  deriving DecidableEq, Repr

inductive Directory where
  | application
  | sessions
  deriving DecidableEq, Repr

/-- A directory, or the session file of an id. -/
inductive Path where
  | directory (d : Directory)
  | session (id : String)
  deriving DecidableEq, Repr

inductive FsRequest where
  | symlinkMetadata (path : Path)
  | createDirAll (d : Directory)
  | setPermissions (path : Path) (mode : Nat)
  | readDir (d : Directory)
  | syncDirectory (d : Directory)
  | createNew (id : String) (mode : Nat)
  | openRead (id : String)
  | metadata (file : Nat)
  | lock (file : Nat)
  | tryLockShared (file : Nat)
  | writeAll (file : Nat) (bytes : Bytes)
  | syncAll (file : Nat)
  | syncData (file : Nat)
  | read (file limit : Nat)
  | close (file : Nat)
  | removeFile (id : String)
  deriving DecidableEq, Repr

/-- What each request is answered with. A directory is listed by the names
in it, each of which may fail. -/
def FsAnswer : FsRequest → Type
  | .symlinkMetadata _ => Except IoError Metadata
  | .createDirAll _ => Except IoError Unit
  | .setPermissions _ _ => Except IoError Unit
  | .readDir _ => Except IoError (List (Except IoError Bytes))
  | .syncDirectory _ => Except IoError Unit
  | .createNew _ _ => Except IoError Nat
  | .openRead _ => Except IoError Nat
  | .metadata _ => Except IoError Metadata
  | .lock _ => Except IoError Unit
  | .tryLockShared _ => Except TryLockError Unit
  | .writeAll _ _ => Except IoError Unit
  | .syncAll _ => Except IoError Unit
  | .syncData _ => Except IoError Unit
  | .read _ _ => Except IoError Bytes
  | .close _ => Unit
  | .removeFile _ => Except IoError Unit

abbrev FsProgram (α : Type) := Program FsRequest FsAnswer α

/-- A file operation that may exit early with an `ε`. -/
abbrev FsCall (ε α : Type) := Interact.Call FsRequest FsAnswer ε α

abbrev FsHistory := List (Event FsAnswer)

abbrev request (r : FsRequest) : FsProgram (FsAnswer r) := Program.request r
abbrev ask {ε : Type} (r : FsRequest) : FsCall ε (FsAnswer r) := Interact.ask r

/-- The mode lets nobody but the owner in. -/
def isPrivate (mode : Nat) : Bool := mode &&& 0o077 == 0

/-! ## The shared state -/

structure Inode (ι : Type) where
  kind : FileKind
  mode : Nat
  nlink : Nat
  bytes : Bytes
  exclusive : Option ι
  shared : ι → Bool

structure FileSystem (ι : Type) where
  directories : Directory → Option Metadata
  sessions : String → Option Nat
  inodes : Nat → Inode ι
  /-- An inode that is not in use. -/
  next : Nat

namespace FileSystem

variable {ι : Type} (s : FileSystem ι)

def fstat (file : Nat) : Metadata where
  kind := (s.inodes file).kind
  mode := (s.inodes file).mode
  ino := file
  nlink := (s.inodes file).nlink
  len := (s.inodes file).bytes.length

def lstat : Path → Option Metadata
  | .directory d => s.directories d
  | .session id => (s.sessions id).map s.fstat

def setDirectory (d : Directory) (m : Metadata) : FileSystem ι :=
  { s with directories := Function.update s.directories d (some m) }

def setInode (file : Nat) (f : Inode ι → Inode ι) : FileSystem ι :=
  { s with inodes := Function.update s.inodes file (f (s.inodes file)) }

def setSession (id : String) (file : Option Nat) : FileSystem ι :=
  { s with sessions := Function.update s.sessions id file }

/-- A new, empty file, owned by nobody yet. -/
def create (id : String) (mode : Nat) : FileSystem ι :=
  { s with
    sessions := Function.update s.sessions id (some s.next)
    inodes := Function.update s.inodes s.next
      { kind := .file, mode, nlink := 1, bytes := [], exclusive := none, shared := fun _ => false }
    next := s.next + 1 }

variable [DecidableEq ι]

/-- `i` holds the one lock. -/
def lockExclusive (i : ι) (file : Nat) : FileSystem ι :=
  s.setInode file fun f => { f with exclusive := some i, shared := Function.update f.shared i false }

/-- `i` holds a shared lock, in place of any other of its own. -/
def lockShared (i : ι) (file : Nat) : FileSystem ι :=
  s.setInode file fun f =>
    { f with exclusive := if f.exclusive = some i then none else f.exclusive, shared := Function.update f.shared i true }

/-- `i` holds no lock. -/
def unlock (i : ι) (file : Nat) : FileSystem ι :=
  s.setInode file fun f =>
    { f with exclusive := if f.exclusive = some i then none else f.exclusive, shared := Function.update f.shared i false }

end FileSystem

/-- What each request does when nothing fails, and the answers it can get.
A new directory has whatever mode the process gives it, and a directory that
changes meanwhile may be listed in any way. -/
inductive Exec {ι : Type} [DecidableEq ι] (i : ι) :
    FileSystem ι → (r : FsRequest) → FsAnswer r → FileSystem ι → Prop
  | symlinkMetadata (s path) : Exec i s (.symlinkMetadata path) (okOr (s.lstat path) .notFound) s
  | createDirAll (s d mode) : s.directories d = none →
      Exec i s (.createDirAll d) (.ok ()) (s.setDirectory d { kind := .directory, mode, ino := 0, nlink := 1, len := 0 })
  | createDirAllPresent (s d m) : s.directories d = some m → m.kind = .directory → Exec i s (.createDirAll d) (.ok ()) s
  | setDirectoryPermissions (s d m mode) : s.directories d = some m →
      Exec i s (.setPermissions (.directory d) mode) (.ok ()) (s.setDirectory d { m with mode })
  | setFilePermissions (s id file mode) : s.sessions id = some file →
      Exec i s (.setPermissions (.session id) mode) (.ok ()) (s.setInode file fun f => { f with mode })
  | setPermissionsAbsent (s path mode) : s.lstat path = none →
      Exec i s (.setPermissions path mode) (.error .notFound) s
  | readDir (s d m) (names : List Bytes) : s.directories d = some m → Exec i s (.readDir d) (.ok (names.map .ok)) s
  | readDirAbsent (s d) : s.directories d = none → Exec i s (.readDir d) (.error .notFound) s
  | syncDirectory (s d) : Exec i s (.syncDirectory d) (.ok ()) s
  | createNew (s id mode m) : s.directories .sessions = some m → s.sessions id = none →
      Exec i s (.createNew id mode) (.ok s.next) (s.create id mode)
  | createNewNoDirectory (s id mode) : s.directories .sessions = none →
      Exec i s (.createNew id mode) (.error .notFound) s
  | createNewPresent (s id mode file) : s.sessions id = some file →
      Exec i s (.createNew id mode) (.error .alreadyExists) s
  | openRead (s id) : Exec i s (.openRead id) (okOr (s.sessions id) .notFound) s
  | metadata (s file) : Exec i s (.metadata file) (.ok (s.fstat file)) s
  | lock (s file) : (∀ j, j ≠ i → (s.inodes file).exclusive ≠ some j ∧ (s.inodes file).shared j = false) →
      Exec i s (.lock file) (.ok ()) (s.lockExclusive i file)
  | tryLockShared (s file) : (∀ j, j ≠ i → (s.inodes file).exclusive ≠ some j) →
      Exec i s (.tryLockShared file) (.ok ()) (s.lockShared i file)
  | tryLockSharedHeld (s file j) : j ≠ i → (s.inodes file).exclusive = some j →
      Exec i s (.tryLockShared file) (.error .wouldBlock) s
  | writeAll (s file bytes) :
      Exec i s (.writeAll file bytes) (.ok ()) (s.setInode file fun f => { f with bytes := f.bytes ++ bytes })
  | syncAll (s file) : Exec i s (.syncAll file) (.ok ()) s
  | syncData (s file) : Exec i s (.syncData file) (.ok ()) s
  | read (s file limit) : Exec i s (.read file limit) (.ok ((s.inodes file).bytes.take limit)) s
  | close (s file) : Exec i s (.close file) () (s.unlock i file)
  | removeFile (s id file) : s.sessions id = some file →
      Exec i s (.removeFile id) (.ok ())
        ((s.setSession id none).setInode file fun f => { f with nlink := f.nlink - 1 })
  | removeFileAbsent (s id) : s.sessions id = none → Exec i s (.removeFile id) (.error .notFound) s

/-- One of the things each request can do; none where it waits. A new
directory is open to all, and what is in a directory is not said. -/
def FileSystem.answer {ι : Type} [DecidableEq ι] [Fintype ι] (i : ι) (s : FileSystem ι) :
    (r : FsRequest) → Option (FsAnswer r × FileSystem ι)
  | .symlinkMetadata path => some (okOr (s.lstat path) .notFound, s)
  | .createDirAll d =>
    match s.directories d with
    | none => some (.ok (), s.setDirectory d { kind := .directory, mode := 0o755, ino := 0, nlink := 1, len := 0 })
    | some m => if m.kind = .directory then some (.ok (), s) else none
  | .setPermissions (.directory d) mode =>
    match s.directories d with
    | none => some (.error .notFound, s)
    | some m => some (.ok (), s.setDirectory d { m with mode })
  | .setPermissions (.session id) mode =>
    match s.sessions id with
    | none => some (.error .notFound, s)
    | some file => some (.ok (), s.setInode file fun f => { f with mode })
  | .readDir d =>
    match s.directories d with
    | none => some (.error .notFound, s)
    | some _ => none
  | .createNew id mode =>
    match s.directories .sessions, s.sessions id with
    | none, _ => some (.error .notFound, s)
    | some _, none => some (.ok s.next, s.create id mode)
    | some _, some _ => some (.error .alreadyExists, s)
  | .openRead id => some (okOr (s.sessions id) .notFound, s)
  | .metadata file => some (.ok (s.fstat file), s)
  | .lock file =>
    if ∀ j, j ≠ i → (s.inodes file).exclusive ≠ some j ∧ (s.inodes file).shared j = false then
      some (.ok (), s.lockExclusive i file)
    else none
  | .tryLockShared file =>
    if ∀ j, j ≠ i → (s.inodes file).exclusive ≠ some j then some (.ok (), s.lockShared i file)
    else some (.error .wouldBlock, s)
  | .writeAll file bytes => some (.ok (), s.setInode file fun f => { f with bytes := f.bytes ++ bytes })
  | .syncDirectory _ | .syncAll _ | .syncData _ => some (.ok (), s)
  | .read file limit => some (.ok ((s.inodes file).bytes.take limit), s)
  | .close file => some ((), s.unlock i file)
  | .removeFile id =>
    match s.sessions id with
    | none => some (.error .notFound, s)
    | some file => some (.ok (), (s.setSession id none).setInode file fun f => { f with nlink := f.nlink - 1 })

theorem Exec.of_answer {ι : Type} [DecidableEq ι] [Fintype ι] (i : ι) (s : FileSystem ι) (r : FsRequest) (a : FsAnswer r)
    (s' : FileSystem ι) (h : s.answer i r = some (a, s')) : Exec i s r a s' := by
  unfold FileSystem.answer at h
  split at h
  · cases h; exact .symlinkMetadata _ _
  · split at h
    · cases h; exact .createDirAll _ _ _ ‹_›
    · split at h
      · cases h; exact .createDirAllPresent _ _ _ ‹_› ‹_›
      · exact nomatch h
  · split at h
    · cases h; exact .setPermissionsAbsent _ _ _ ‹_›
    · cases h; exact .setDirectoryPermissions _ _ _ _ ‹_›
  · split at h
    · rename_i hs
      cases h; exact .setPermissionsAbsent _ _ _ (by simp [FileSystem.lstat, hs])
    · cases h; exact .setFilePermissions _ _ _ _ ‹_›
  · split at h
    · cases h; exact .readDirAbsent _ _ ‹_›
    · exact nomatch h
  · split at h
    · cases h; exact .createNewNoDirectory _ _ _ ‹_›
    · cases h; exact .createNew _ _ _ _ ‹_› ‹_›
    · cases h; exact .createNewPresent _ _ _ _ ‹_›
  · cases h; exact .openRead _ _
  · cases h; exact .metadata _ _
  · split at h
    · cases h; exact .lock _ _ ‹_›
    · exact nomatch h
  · split at h
    · cases h; exact .tryLockShared _ _ ‹_›
    · rename_i hheld
      simp only [ne_eq, not_forall, not_not] at hheld
      obtain ⟨j, hj, hex⟩ := hheld
      cases h; exact .tryLockSharedHeld _ _ j hj hex
  · cases h; exact .writeAll _ _ _
  · cases h; exact .syncDirectory _ _
  · cases h; exact .syncAll _ _
  · cases h; exact .syncData _ _
  · cases h; exact .read _ _ _
  · cases h; exact .close _ _
  · split at h
    · cases h; exact .removeFileAbsent _ _ ‹_›
    · cases h; exact .removeFile _ _ _ ‹_›

end AgentHarness.SessionLog
