/-
One process writes a session while any number of others show and list,
in any order of their calls. Of a session that was not there before, every
reader reports that it is missing, busy, or what its prompt is, unless a
reader's call falls into one of three gaps of the writer's: a new file is
locked only after it can be opened, a file that is rolled back is unlocked
before it is removed, and a new directory is closed to others only after it
can be seen.
-/
import AgentHarness.SessionLog.Publishing

namespace AgentHarness.SessionLog

open Text Except Interact

/-! ## The parties -/

/-- What a process does with the session it has started. -/
inductive WriterAction where
  | appendAssistant (text : String)
  | appendFailure (failureCode : FailureCode)
  | rollback
  | drop

inductive WriterResult where
  | notStarted (error : CreateError)
  | appended (result : Except AppendError Unit)
  | rolledBack (result : Except FileWriter.RollbackError Unit)
  | dropped
  deriving DecidableEq, Repr

inductive Outcome where
  | written (result : WriterResult)
  | shown (id : String) (result : Except ShowError ShowResult)
  | listed (result : Except ListError (List SessionSummary))
  deriving DecidableEq

def WriterAction.program (action : WriterAction) (w : FileWriter) : FsProgram WriterResult :=
  match action with
  | .appendAssistant text => do return .appended (← w.appendAssistant text)
  | .appendFailure failureCode => do return .appended (← w.appendFailure failureCode)
  | .rollback => do return .rolledBack (← w.rollback.run)
  | .drop => do
    let _ ← request (.close w.file)
    return .dropped

def writerProgram (sources : Sources) (prompt : String) (action : WriterAction) : FsProgram Outcome := do
  match ← (startFile sources prompt).run with
  | .error e => return .written (.notStarted e)
  | .ok w => return .written (← action.program w)

inductive Reader where
  | showing (id : String)
  | listing (limits : ListLimits)

def Reader.program : Reader → FsProgram Outcome
  | .showing id => do return .shown id (← (showSession id).run)
  | .listing limits => do return .listed (← (listFile limits).run)

variable {κ : Type}

/-- The writer and the readers, about to begin. -/
def begin (sources : Sources) (prompt : String) (action : WriterAction) (readers : κ → Reader)
    (s : FileSystem (Option κ)) : World (Option κ) FsRequest FsAnswer Outcome (FileSystem (Option κ)) where
  shared := s
  prog
    | none => writerProgram sources prompt action
    | some k => (readers k).program

/-- What a reader says of the session is true. -/
def Truthful (sid prompt : String) : Outcome → Prop
  | .written _ => True
  | .shown id result => id = sid → Reports prompt result
  | .listed result => Lists sid prompt result

def partyContract (sid prompt : String) : Option κ → Contract FsRequest FsAnswer
  | none => writerContract prompt
  | some _ => readerContract sid prompt

theorem writerProgram_meets (sources : Sources) (prompt : String) (action : WriterAction) :
    (writerProgram sources prompt action).Meets (writerContract prompt) (fun _ _ => True) [] := by
  refine (startFile_meets sources rfl).bind fun h x hx => ?_
  cases x with
  | error e => trivial
  | ok w =>
    obtain ⟨s, hs⟩ := hx w rfl
    refine Program.Meets.bind (Q := fun _ _ => True) ?_ fun _ _ _ => trivial
    cases action with
    | appendAssistant text => exact (appendAssistant_meets hs text).bind fun _ _ _ => trivial
    | appendFailure code => exact (appendFailure_meets hs code).bind fun _ _ _ => trivial
    | rollback => exact (rollback_meets hs).bind fun _ _ _ => trivial
    | drop => exact Program.meets_request_bind.mpr ⟨⟨_, _, hs.stage, hs.shows⟩, fun _ _ => trivial⟩

theorem Reader.program_meets {sid prompt : String} (hvalid : validId sid = true) (reader : Reader) :
    reader.program.Meets (readerContract sid prompt) (fun _ x => Truthful sid prompt x) [] := by
  cases reader with
  | showing id => exact (showSession_meets hvalid id rfl).bind fun _ _ hx => hx
  | listing limits => exact (listFile_meets limits rfl).bind fun _ _ hx => hx

/-! ## The gaps -/

/-- A step outside the gaps: a reader looks at a directory only while no
others are let in, is not granted the lock of a new file that its writer
has not locked yet, and is not between the open of a file and its last
check of it when the file is removed. -/
def Undisturbed [DecidableEq κ] (sid : String) : StepCond (Option κ) FsAnswer (FileSystem (Option κ)) := fun tr s i e =>
  match i, e.1 with
  | some _, .symlinkMetadata (.directory d) => ∀ m ∈ s.directories d, isPrivate m.mode = true
  | some _, .tryLockShared file =>
    s.sessions sid = some file → (s.inodes file).exclusive = none → (s.inodes file).bytes ≠ []
  | none, .removeFile id => id = sid → ∀ k, (look sid (mine (some k) tr)).file? = none
  | _, _ => True

instance [DecidableEq κ] [Fintype κ] (sid : String) (tr) (s : FileSystem (Option κ)) (i e) : Decidable (Undisturbed sid tr s i e) := by
  unfold Undisturbed
  split <;> infer_instance

/-! ## What the shared state is, by where the parties are -/

section
variable (sid prompt : String) (s : FileSystem (Option κ))

def Contents : Stage → Prop
  | .created _ file => (s.inodes file).bytes = [] ∧ (s.inodes file).exclusive = none
  | .writing _ file w => (s.inodes file).bytes = w ∧ (s.inodes file).exclusive = some none
  | .released id file w => (s.inodes file).bytes = w ∧ (s.inodes file).exclusive = none ∧ Shows id prompt w
  | .idle | .removed => True

/-- Reader `k` holds the lock of a file that shows the session. -/
structure HoldsShared (k : κ) (file : Nat) : Prop where
  shared : (s.inodes file).shared (some k) = true
  exclusive : (s.inodes file).exclusive = none
  shows : Shows sid prompt (s.inodes file).bytes

def LooksAt (k : κ) : Look → Prop
  | .away => True
  | .opened file => s.sessions sid = some file
  | .locked file => s.sessions sid = some file ∧ HoldsShared sid prompt s k file
  | .sized file len | .readOut file len =>
    s.sessions sid = some file ∧ HoldsShared sid prompt s k file ∧ (s.inodes file).bytes.length = len

/-- The writer's file is where its stage says, the session is nowhere else,
and every reader looks at it. -/
structure Consistent (g : Stage) (l : κ → Look) : Prop where
  place : ∀ id file, g.place? = some (id, file) → s.sessions id = some file ∧ (s.fstat file).IsFile file
  absent : (∀ file, g.place? ≠ some (sid, file)) → s.sessions sid = none
  contents : Contents prompt s g
  looks : ∀ k, LooksAt sid prompt s k (l k)

end

section
variable {sid prompt : String} {s s' : FileSystem (Option κ)} {g : Stage} {l : κ → Look}

theorem LooksAt.file {k : κ} {l : Look} (h : LooksAt sid prompt s k l) {file : Nat} (hf : l.file? = some file) :
    s.sessions sid = some file := by
  cases l with
  | away => exact nomatch hf
  | opened f => cases hf; exact h
  | locked f => cases hf; exact h.1
  | sized f len => cases hf; exact h.1
  | readOut f len => cases hf; exact h.1

theorem Consistent.at_place (hc : Consistent sid prompt s g l) {file : Nat} (h : s.sessions sid = some file) :
    g.place? = some (sid, file) := by
  by_contra hne
  have hno : ∀ file', g.place? ≠ some (sid, file') := by
    intro file' hp
    obtain ⟨hs, -⟩ := hc.place sid file' hp
    rw [h] at hs
    exact hne (Option.some.inj hs ▸ hp)
  rw [hc.absent hno] at h
  exact nomatch h

theorem Consistent.isFile (hc : Consistent sid prompt s g l) {file : Nat} (h : s.sessions sid = some file) :
    (s.fstat file).IsFile file := (hc.place sid file (hc.at_place h)).2

/-- While the session is nowhere nobody looks at it. -/
theorem Consistent.away (hc : Consistent sid prompt s g l) (h : s.sessions sid = none) (k : κ) : l k = .away := by
  have hk := hc.looks k
  cases hl : l k with
  | away => rfl
  | _ => exact absurd (hk.file (by rw [hl]; rfl)) (by rw [h]; exact nofun)

end

/-! ## A reader's step -/

section
variable {ι : Type} {s s' : FileSystem ι} {i : ι}

/-- What a step leaves alone: everything but `i`'s own locks. -/
structure Unchanged (i : ι) (s s' : FileSystem ι) : Prop where
  directories : s'.directories = s.directories
  sessions : s'.sessions = s.sessions
  fstat : ∀ f, s'.fstat f = s.fstat f
  bytes : ∀ f, (s'.inodes f).bytes = (s.inodes f).bytes
  exclusive : ∀ f, (s.inodes f).exclusive ≠ some i → (s'.inodes f).exclusive = (s.inodes f).exclusive
  shared : ∀ f j, j ≠ i → (s'.inodes f).shared j = (s.inodes f).shared j

theorem Unchanged.refl (i : ι) (s : FileSystem ι) : Unchanged i s s :=
  ⟨rfl, rfl, fun _ => rfl, fun _ => rfl, fun _ _ => rfl, fun _ _ _ => rfl⟩

variable [DecidableEq ι]

theorem unchanged_locks (i : ι) (s : FileSystem ι) (file : Nat) (b : Bool) :
    Unchanged i s (s.setInode file fun f =>
      { f with
        exclusive := if f.exclusive = some i then none else f.exclusive
        shared := Function.update f.shared i b }) := by
  refine ⟨rfl, rfl, fun f => ?_, fun f => ?_, fun f he => ?_, fun f j hj => ?_⟩ <;> by_cases hf : f = file
  · subst hf
    simp [FileSystem.fstat, FileSystem.setInode]
  · simp [FileSystem.fstat, FileSystem.setInode, hf]
  · subst hf
    simp [FileSystem.setInode]
  · simp [FileSystem.setInode, hf]
  · subst hf
    simp [FileSystem.setInode, he]
  · simp [FileSystem.setInode, hf]
  · subst hf
    simp [FileSystem.setInode, hj]
  · simp [FileSystem.setInode, hf]

theorem Exec.unchanged {r : FsRequest} {a : FsAnswer r} {h : FsHistory} (hx : Exec i s r a s') (hg : readerGuar h r) :
    Unchanged i s s' := by
  cases hx with
  | symlinkMetadata | openRead | metadata | read | readDir | readDirAbsent | tryLockSharedHeld => exact .refl i s
  | tryLockShared file _ => exact unchanged_locks i s file true
  | close file => exact unchanged_locks i s file false
  | _ => exact hg.elim

theorem lockShared_self (s : FileSystem ι) (i : ι) (file : Nat) : ((s.lockShared i file).inodes file).shared i = true := by
  simp [FileSystem.lockShared, FileSystem.setInode]

theorem lockShared_keeps {f : Nat} (h : (s.inodes f).shared i = true) (file : Nat) :
    ((s.lockShared i file).inodes f).shared i = true := by
  by_cases hf : f = file
  · subst hf
    exact lockShared_self s i f
  · simpa [FileSystem.lockShared, FileSystem.setInode, hf] using h

end

section
variable {sid prompt : String} {s s' : FileSystem (Option κ)} {g : Stage} {l : κ → Look}

theorem HoldsShared.unchanged {i : Option κ} {k : κ} {file : Nat} (h : HoldsShared sid prompt s k file)
    (hu : Unchanged i s s') (hshared : (s'.inodes file).shared (some k) = true) : HoldsShared sid prompt s' k file where
  shared := hshared
  exclusive := (hu.exclusive file (by rw [h.exclusive]; exact nofun)).trans h.exclusive
  shows := hu.bytes file ▸ h.shows

/-- A reader looks on, as long as it keeps its lock on the same bytes. -/
theorem LooksAt.keeps {k : κ} {l : Look} (h : LooksAt sid prompt s k l) (hsessions : s'.sessions = s.sessions)
    (hheld : ∀ f, HoldsShared sid prompt s k f →
      HoldsShared sid prompt s' k f ∧ (s'.inodes f).bytes = (s.inodes f).bytes) : LooksAt sid prompt s' k l := by
  have hs : ∀ file, s.sessions sid = some file → s'.sessions sid = some file := fun _ h => hsessions ▸ h
  cases l with
  | away => trivial
  | opened file => exact hs file h
  | locked file => exact ⟨hs file h.1, (hheld file h.2).1⟩
  | sized file len | readOut file len =>
    obtain ⟨hkept, hbytes⟩ := hheld file h.2.1
    exact ⟨hs file h.1, hkept, hbytes ▸ h.2.2⟩

theorem LooksAt.unchanged {i : Option κ} {k : κ} {l : Look} (h : LooksAt sid prompt s k l) (hu : Unchanged i s s')
    (hshared : ∀ f, (s.inodes f).shared (some k) = true → (s'.inodes f).shared (some k) = true) :
    LooksAt sid prompt s' k l :=
  h.keeps hu.sessions fun f hf => ⟨hf.unchanged hu (hshared f hf.shared), hu.bytes f⟩

/-- No reader ever locks a file for itself alone, so only the other locks matter. -/
theorem Contents.congr (h : Contents prompt s g) (hbytes : ∀ f, (s'.inodes f).bytes = (s.inodes f).bytes)
    (hexclusive : ∀ f, (∀ k, (s.inodes f).exclusive ≠ some (some k)) →
      (s'.inodes f).exclusive = (s.inodes f).exclusive) : Contents prompt s' g := by
  cases g with
  | idle | removed => trivial
  | created id file =>
    obtain ⟨hb, he⟩ := h
    exact ⟨(hbytes file).trans hb, (hexclusive file fun _ => by rw [he]; exact nofun).trans he⟩
  | writing id file w =>
    obtain ⟨hb, he⟩ := h
    exact ⟨(hbytes file).trans hb, (hexclusive file fun _ => by rw [he]; exact nofun).trans he⟩
  | released id file w =>
    obtain ⟨hb, he, hshows⟩ := h
    exact ⟨(hbytes file).trans hb, (hexclusive file fun _ => by rw [he]; exact nofun).trans he, hshows⟩

/-- **A shared lock is granted** only on a file that shows the session, once
its writer has locked it. -/
theorem Consistent.granted (hc : Consistent sid prompt s g l) {k : κ} {file : Nat} (hat : s.sessions sid = some file)
    (hfree : ∀ j, j ≠ some k → (s.inodes file).exclusive ≠ some j)
    (hok : (s.inodes file).exclusive = none → (s.inodes file).bytes ≠ []) :
    (s.inodes file).exclusive = none ∧ Shows sid prompt (s.inodes file).bytes := by
  have hplace := hc.at_place hat
  have hcontents := hc.contents
  cases g with
  | idle | removed => exact nomatch hplace
  | created id f =>
    cases hplace
    exact absurd hcontents.1 (hok hcontents.2)
  | writing id f w =>
    cases hplace
    exact absurd hcontents.2 (hfree none nofun)
  | released id f w =>
    cases hplace
    exact ⟨hcontents.2.1, hcontents.1.symm ▸ hcontents.2.2⟩

variable [DecidableEq κ]

/-- Where the reader is after its step. -/
theorem Consistent.looks_own (hc : Consistent sid prompt s g l) {k : κ} {r : FsRequest} {a : FsAnswer r} {h : FsHistory}
    (hx : Exec (some k) s r a s') (hg : readerGuar h r)
    (hok : ∀ file, r = .tryLockShared file → s.sessions sid = some file → (s.inodes file).exclusive = none →
      (s.inodes file).bytes ≠ []) : LooksAt sid prompt s' k (noteLook sid (l k) ⟨r, a⟩) := by
  have hk := hc.looks k
  generalize l k = look at hk ⊢
  cases hx with
  | symlinkMetadata path =>
    cases path with
    | directory d => exact hk
    | session id =>
      cases look with
      | readOut file len =>
        by_cases hid : id = sid
        · simp only [noteLook, hid, if_true]
          trivial
        · simp only [noteLook, hid, if_false]
          exact hk
      | _ => exact hk
  | openRead id =>
    cases hs : s.sessions id with
    | none => exact hk
    | some file =>
      by_cases hid : id = sid
      · subst hid
        simp only [okOr_some, noteLook, if_true]
        exact hs
      · simp only [okOr_some, noteLook, hid, if_false]
        exact hk
  | metadata file =>
    by_cases hl : look = .locked file
    · subst hl
      simp only [noteLook, if_true]
      exact ⟨hk.1, hk.2, rfl⟩
    · simp only [noteLook, hl, if_false]
      exact hk
  | tryLockShared file hfree =>
    have hu := unchanged_locks (some k) s file true
    by_cases hl : look = .opened file
    · subst hl
      simp only [noteLook, if_true]
      obtain ⟨hex, hshows⟩ := hc.granted hk hfree (hok file rfl hk)
      refine ⟨hk, lockShared_self s (some k) file, ?_, ?_⟩
      · exact (hu.exclusive file (by simp [hex])).trans hex
      · exact (hu.bytes file).symm ▸ hshows
    · simp only [noteLook, hl, if_false]
      exact hk.unchanged hu fun f hf => lockShared_keeps hf file
  | tryLockSharedHeld file j _ _ => trivial
  | read file limit =>
    cases look with
    | sized f len =>
      by_cases hf : f = file
      · simp only [noteLook, hf, if_true]
        exact hf ▸ hk
      · simp only [noteLook, hf, if_false]
        exact hk
    | _ => exact hk
  | close file => trivial
  | readDir | readDirAbsent => exact hk
  | _ => exact hg.elim

theorem Consistent.reader_step (hc : Consistent sid prompt s g l) {k : κ} {r : FsRequest} {a : FsAnswer r}
    {h : FsHistory} (hx : Exec (some k) s r a s') (hg : readerGuar h r)
    (hok : ∀ file, r = .tryLockShared file → s.sessions sid = some file → (s.inodes file).exclusive = none →
      (s.inodes file).bytes ≠ []) {l' : κ → Look} (hown : l' k = noteLook sid (l k) ⟨r, a⟩)
    (hother : ∀ j, j ≠ k → l' j = l j) : Consistent sid prompt s' g l' := by
  have hu := hx.unchanged hg
  refine ⟨fun id file hp => ?_, fun hno => ?_, hc.contents.congr hu.bytes fun f hf => hu.exclusive f (hf k), fun j => ?_⟩
  · rw [hu.sessions, hu.fstat]
    exact hc.place id file hp
  · rw [hu.sessions]
    exact hc.absent hno
  · by_cases hj : j = k
    · subst hj
      rw [hown]
      exact hc.looks_own hx hg hok
    · rw [hother j hj]
      refine (hc.looks j).unchanged hu fun f hf => ?_
      rw [hu.shared f (some j) (by simpa using hj)]
      exact hf

/-- **What a reader relies on is so.** -/
theorem Consistent.reader_rely (hc : Consistent sid prompt s g l) {k : κ} {r : FsRequest} {a : FsAnswer r}
    {h : FsHistory} (hx : Exec (some k) s r a s') (hg : readerGuar h r) (hl : look sid h = l k)
    (hkind : ∀ d m, s.directories d = some m → m.kind = .directory)
    (hmode : ∀ d, r = .symlinkMetadata (.directory d) → ∀ m, s.directories d = some m → isPrivate m.mode = true)
    (hseen : ∀ d, r = .readDir d → s.directories d ≠ none) : readerRely sid prompt h r a := by
  have hk := hc.looks k
  cases hx with
  | symlinkMetadata path =>
    cases path with
    | directory d =>
      simp only [readerRely, FileSystem.lstat]
      cases hd : s.directories d with
      | none => exact .inl rfl
      | some m => exact .inr ⟨m, rfl, hkind d m hd, hmode d rfl m hd⟩
    | session id =>
      simp only [readerRely, FileSystem.lstat]
      intro heq
      subst heq
      rw [hl]
      cases hf : (l k).file? with
      | some file =>
        have hs := hk.file hf
        exact ⟨s.fstat file, by rw [hs]; rfl, hc.isFile hs⟩
      | none =>
        cases hs : s.sessions id with
        | none => exact .inl rfl
        | some file => exact .inr ⟨s.fstat file, rfl, (hc.isFile hs).kind⟩
  | openRead id =>
    intro heq
    subst heq
    cases hs : s.sessions id with
    | none => exact .inl rfl
    | some file => exact .inr ⟨file, rfl⟩
  | metadata file =>
    simp only [readerRely, hl]
    intro hf
    have hs := hk.file hf
    refine ⟨s.fstat file, rfl, hc.isFile hs, fun h' => ?_, fun len h' => ?_⟩
    · rw [h'] at hk
      exact hk.2.shows.1
    · rw [h'] at hk
      exact hk.2.2
  | tryLockShared file _ => exact fun _ => .inl rfl
  | tryLockSharedHeld file j _ _ => exact fun _ => .inr rfl
  | read file limit =>
    simp only [readerRely, hl]
    intro len h' hlen
    rw [h'] at hk
    obtain ⟨-, hheld, hbytes⟩ := hk
    have htake : (s.inodes file).bytes.take limit = (s.inodes file).bytes :=
      List.take_of_length_le (hbytes.symm ▸ hlen)
    exact ⟨(s.inodes file).bytes, by rw [htake], hbytes, hheld.shows⟩
  | readDir d m names _ => exact ⟨names, rfl⟩
  | readDirAbsent d hd => exact absurd hd (hseen d rfl)
  | close file => trivial
  | _ => exact hg.elim

end

/-! ## The writer's step -/

section
variable {sid prompt : String} {s s' : FileSystem (Option κ)} {g : Stage} {l : κ → Look} {h : FsHistory}

theorem Consistent.setDirectory (hc : Consistent sid prompt s g l) (d : Directory) (m : Metadata) :
    Consistent sid prompt (s.setDirectory d m) g l :=
  ⟨hc.place, hc.absent, hc.contents, fun k => (hc.looks k).keeps rfl fun _ hf => ⟨⟨hf.1, hf.2, hf.3⟩, rfl⟩⟩

/-- A change of the writer's own file that a reader with a lock on it does
not see, and one of its stage. -/
theorem Consistent.setInode (hc : Consistent sid prompt s g l) {file : Nat} {f : Inode (Option κ) → Inode (Option κ)}
    {g' : Stage} (hplace : g'.place? = g.place?)
    (hfile : (s.fstat file).IsFile file → ((s.setInode file f).fstat file).IsFile file)
    (hcontents : Contents prompt (s.setInode file f) g')
    (hheld : ∀ k, HoldsShared sid prompt s k file → HoldsShared sid prompt (s.setInode file f) k file ∧
      ((s.setInode file f).inodes file).bytes = (s.inodes file).bytes) :
    Consistent sid prompt (s.setInode file f) g' l := by
  have hother : ∀ file', file' ≠ file → (s.setInode file f).inodes file' = s.inodes file' := fun file' hne => by
    simp [FileSystem.setInode, hne]
  refine ⟨fun id file' hp => ?_, fun hno => hc.absent (hplace ▸ hno), hcontents, fun k => ?_⟩
  · obtain ⟨hs, hf⟩ := hc.place id file' (hplace ▸ hp)
    refine ⟨hs, ?_⟩
    by_cases he : file' = file
    · subst he
      exact hfile hf
    · have hstat : (s.setInode file f).fstat file' = s.fstat file' := by simp only [FileSystem.fstat, hother file' he]
      exact hstat ▸ hf
  · refine (hc.looks k).keeps rfl fun file' hf => ?_
    by_cases he : file' = file
    · subst he
      exact hheld k hf
    · have hi := hother file' he
      exact ⟨⟨by rw [hi]; exact hf.1, by rw [hi]; exact hf.2, by rw [hi]; exact hf.3⟩, by rw [hi]⟩

theorem isFile_setInode {file : Nat} {f : Inode (Option κ) → Inode (Option κ)}
    (hf : (s.fstat file).IsFile file) (hkind : (f (s.inodes file)).kind = (s.inodes file).kind)
    (hnlink : (f (s.inodes file)).nlink = (s.inodes file).nlink)
    (hmode : isPrivate (f (s.inodes file)).mode = true) : ((s.setInode file f).fstat file).IsFile file := by
  have hself : (s.setInode file f).inodes file = f (s.inodes file) := by simp [FileSystem.setInode]
  exact ⟨by simpa [FileSystem.fstat, hself, hkind] using hf.kind, rfl,
    by simpa [FileSystem.fstat, hself, hnlink] using hf.nlink, by simpa [FileSystem.fstat, hself] using hmode⟩

/-- A new file is at its path, and nobody has looked yet. -/
theorem Consistent.create (hc : Consistent sid prompt s .idle l) {id : String} {mode : Nat}
    (hmode : isPrivate mode = true) : Consistent sid prompt (s.create id mode) (.created id s.next) l := by
  have hnone : s.sessions sid = none := hc.absent fun _ => nofun
  refine ⟨fun id' file hp => ?_, fun hno => ?_, ?_, fun k => ?_⟩
  · cases hp
    refine ⟨by simp [FileSystem.create], ?_, ?_, ?_, ?_⟩ <;> simp [FileSystem.create, FileSystem.fstat, hmode]
  · have hid : sid ≠ id := fun he => hno s.next (he ▸ rfl)
    simpa [FileSystem.create, hid] using hnone
  · simp [Contents, FileSystem.create]
  · rw [hc.away hnone k]
    trivial

/-- A file that nobody looks at is gone. -/
theorem Consistent.remove (hc : Consistent sid prompt s g l) {id : String} {file : Nat} {f : Inode (Option κ) → Inode (Option κ)}
    (hplace : g.place? = some (id, file)) (haway : id = sid → ∀ k, (l k).file? = none) :
    Consistent sid prompt ((s.setSession id none).setInode file f) .removed l := by
  have hnone : ((s.setSession id none).setInode file f).sessions sid = none := by
    by_cases hid : id = sid
    · simp [FileSystem.setInode, FileSystem.setSession, hid]
    · have hs : s.sessions sid = none := hc.absent fun file' hp => by
        rw [hplace] at hp
        exact hid (Prod.mk.inj (Option.some.inj hp)).1
      simpa [FileSystem.setInode, FileSystem.setSession, Ne.symm hid] using hs
  refine ⟨fun _ _ hp => (nomatch hp), fun _ => hnone, trivial, fun k => ?_⟩
  have hl : l k = .away := by
    by_cases hid : id = sid
    · have hfile := haway hid k
      cases hl : l k with
      | away => rfl
      | _ => rw [hl] at hfile; exact nomatch hfile
    · exact hc.away (hc.absent fun file' hp => by
        rw [hplace] at hp
        exact hid (Prod.mk.inj (Option.some.inj hp)).1) k
  rw [hl]
  trivial

variable [DecidableEq κ] {r : FsRequest} {a : FsAnswer r}

/-- **What the writer relies on is so.** -/
theorem Consistent.writer_rely (hc : Consistent sid prompt s (stage h) l) (hx : Exec none s r a s')
    (hg : writerGuar prompt h r) : writerRely h r a := by
  cases hx with
  | symlinkMetadata path =>
    cases path with
    | directory d => trivial
    | session id =>
      intro file hp
      obtain ⟨hs, hf⟩ := hc.place id file hp
      exact ⟨s.fstat file, by simp only [FileSystem.lstat, hs]; rfl, hf⟩
  | setPermissionsAbsent path mode hpath =>
    cases path with
    | directory d => trivial
    | session id =>
      intro file hp
      simp only [FileSystem.lstat, (hc.place id file hp).1] at hpath
      cases hpath
  | setFilePermissions => exact fun _ _ => rfl
  | metadata file =>
    intro id hp
    refine ⟨s.fstat file, rfl, (hc.place id file hp).2, fun w hw => ?_⟩
    have hcontents := hc.contents
    rw [hw] at hcontents
    exact congrArg List.length hcontents.1
  | lock | writeAll | syncAll | syncData | syncDirectory => exact rfl
  | tryLockShared | tryLockSharedHeld | openRead | read | readDir | readDirAbsent => exact hg.elim
  | _ => trivial

theorem Consistent.writer_step (hc : Consistent sid prompt s (stage h) l) (hx : Exec none s r a s')
    (hg : writerGuar prompt h r) (haway : ∀ id, r = .removeFile id → id = sid → ∀ k, (l k).file? = none) :
    Consistent sid prompt s' (noteStage (stage h) ⟨r, a⟩) l := by
  cases hx with
  | symlinkMetadata | createDirAllPresent | setPermissionsAbsent | syncDirectory | createNewNoDirectory | createNewPresent
  | metadata | syncAll | syncData | removeFileAbsent => exact hc
  | createDirAll d mode _ => exact hc.setDirectory d _
  | setDirectoryPermissions d m mode _ => exact hc.setDirectory d _
  | setFilePermissions id file mode hs =>
    have hself : ∀ f, ((s.setInode file fun f => { f with mode }).inodes f).bytes = (s.inodes f).bytes ∧
        ((s.setInode file fun f => { f with mode }).inodes f).exclusive = (s.inodes f).exclusive ∧
        ((s.setInode file fun f => { f with mode }).inodes f).shared = (s.inodes f).shared := by
      intro f
      by_cases hf : f = file
      · subst hf
        simp [FileSystem.setInode]
      · simp [FileSystem.setInode, hf]
    refine hc.setInode rfl (fun hf => isFile_setInode hf rfl rfl hg) ?_ fun k hf => ?_
    · exact hc.contents.congr (fun f => (hself f).1) fun f _ => (hself f).2.1
    · exact ⟨⟨by rw [(hself file).2.2]; exact hf.1, (hself file).2.1.trans hf.2, (hself file).1 ▸ hf.3⟩, (hself file).1⟩
  | createNew id mode m _ hs =>
    obtain ⟨hidle, hmode⟩ := hg
    rw [hidle] at hc ⊢
    exact hc.create hmode
  | lock file hfree =>
    obtain ⟨id, hg⟩ := hg
    rw [hg] at hc ⊢
    simp only [noteStage, if_true]
    refine hc.setInode rfl (fun hf => isFile_setInode hf rfl rfl hf.mode) ?_ fun k hf => ?_
    · exact ⟨by simpa [FileSystem.setInode] using hc.contents.1, by simp [FileSystem.setInode]⟩
    · exact absurd hf.shared (by rw [(hfree (some k) nofun).2]; exact nofun)
  | writeAll file bytes =>
    obtain ⟨id, w, hg⟩ := hg
    rw [hg] at hc ⊢
    simp only [noteStage, if_true]
    have hcontents := hc.contents
    refine hc.setInode rfl (fun hf => isFile_setInode hf rfl rfl hf.mode) ?_ fun k hf => ?_
    · exact ⟨by simp [FileSystem.setInode, hcontents.1], by simpa [FileSystem.setInode] using hcontents.2⟩
    · exact absurd hf.exclusive (by rw [hcontents.2]; exact nofun)
  | close file =>
    obtain ⟨id, w, hg, hshows⟩ := hg
    rw [hg] at hc ⊢
    simp only [noteStage, if_true]
    have hcontents := hc.contents
    refine hc.setInode rfl (fun hf => isFile_setInode hf rfl rfl hf.mode) ?_ fun k hf => ?_
    · exact ⟨by simpa [FileSystem.setInode] using hcontents.1, by simp [FileSystem.setInode, hcontents.2], hshows⟩
    · exact absurd hf.exclusive (by rw [hcontents.2]; exact nofun)
  | removeFile id file hs =>
    obtain ⟨file', w, hg⟩ := hg
    have hplace : (stage h).place? = some (id, file') := by rw [hg]; rfl
    have hfile : file' = file := Option.some.inj ((hc.place id file' hplace).1.symm.trans hs)
    exact hc.remove (hfile ▸ hplace) (haway id rfl)
  | tryLockShared | tryLockSharedHeld | openRead | read | readDir | readDirAbsent => exact hg.elim

end

/-! ## Whole runs -/

section
variable {ι : Type} {s s' : FileSystem ι} {i : ι} {r : FsRequest} {a : FsAnswer r}

/-- Every directory there is is one. -/
def ProperDirectories (s : FileSystem ι) : Prop := ∀ d m, s.directories d = some m → m.kind = .directory

theorem ProperDirectories.set (h : ProperDirectories s) {d : Directory} {m : Metadata} (hm : m.kind = .directory) :
    ProperDirectories (s.setDirectory d m) := by
  intro d' m' hd'
  by_cases he : d' = d
  · subst he
    simp only [FileSystem.setDirectory, Function.update_self, Option.some.injEq] at hd'
    exact hd' ▸ hm
  · simp only [FileSystem.setDirectory, Function.update_of_ne he] at hd'
    exact h d' m' hd'

theorem setDirectory_present {d d' : Directory} (m : Metadata) (h : s.directories d' ≠ none) :
    (s.setDirectory d m).directories d' ≠ none := by
  by_cases he : d' = d
  · subst he
    simp [FileSystem.setDirectory]
  · simpa [FileSystem.setDirectory, he] using h

variable [DecidableEq ι]

theorem Exec.properDirectories (hx : Exec i s r a s') (h : ProperDirectories s) : ProperDirectories s' := by
  cases hx with
  | createDirAll d mode _ => exact h.set rfl
  | setDirectoryPermissions d m mode hm => exact h.set (h d m hm)
  | _ => exact h

/-- No directory ever goes away. -/
theorem Exec.directory_present (hx : Exec i s r a s') {d : Directory} (h : s.directories d ≠ none) :
    s'.directories d ≠ none := by
  cases hx with
  | createDirAll d' mode _ => exact setDirectory_present _ h
  | setDirectoryPermissions d' m mode _ => exact setDirectory_present _ h
  | _ => exact h

/-- What is seen is there. -/
theorem Exec.seen {d : Directory} {m : Metadata} (hx : Exec i s (.symlinkMetadata (.directory d)) (.ok m) s') :
    s.directories d ≠ none := by
  generalize ha : (Except.ok m : FsAnswer (.symlinkMetadata (.directory d))) = a at hx
  cases hx with
  | symlinkMetadata =>
    intro hnone
    simp only [FileSystem.lstat, hnone] at ha
    cases ha

end

section
variable [DecidableEq κ] {sid prompt : String} {s : FileSystem (Option κ)} {tr : Trace (Option κ) FsAnswer}

/-- The state of a run: its file by the writer's stage, and the directories
that readers have seen. -/
structure Steady (sid prompt : String) (tr : Trace (Option κ) FsAnswer) (s : FileSystem (Option κ)) : Prop where
  consistent : Consistent sid prompt s (stage (mine none tr)) fun k => look sid (mine (some k) tr)
  proper : ProperDirectories s
  seen : ∀ k d, Seen d (mine (some k) tr) → s.directories d ≠ none

theorem Steady.initial (habsent : s.sessions sid = none) (hproper : ProperDirectories s) :
    Steady sid prompt ([] : Trace (Option κ) FsAnswer) s where
  consistent := ⟨fun _ _ hp => (nomatch hp), fun _ => habsent, trivial, fun _ => trivial⟩
  proper := hproper
  seen := fun _ _ ⟨_, hm⟩ => (nomatch hm)

theorem Steady.seen_step (hs : Steady sid prompt tr s) {i : Option κ} {r : FsRequest} {a : FsAnswer r}
    {s' : FileSystem (Option κ)} (hx : Exec i s r a s') (k : κ) (d : Directory)
    (h : Seen d (mine (some k) (tr ++ [(i, ⟨r, a⟩)]))) : s'.directories d ≠ none := by
  obtain ⟨m, hm⟩ := h
  rw [mem_mine, List.mem_append, List.mem_singleton] at hm
  refine hx.directory_present ?_
  rcases hm with hm | hm
  · exact hs.seen k d ⟨m, mem_mine.mpr hm⟩
  · cases hm
    exact hx.seen

/-- **A step outside the gaps** is answered as its party relies on, and keeps
the state of the run. -/
theorem Steady.step (hs : Steady sid prompt tr s) {i : Option κ} {r : FsRequest} {a : FsAnswer r}
    {s' : FileSystem (Option κ)} (hg : (partyContract sid prompt i).guar (mine i tr) r) (hx : Exec i s r a s')
    (hok : Undisturbed sid tr s i ⟨r, a⟩) :
    (partyContract sid prompt i).rely (mine i tr) r a ∧ Steady sid prompt (tr ++ [(i, ⟨r, a⟩)]) s' := by
  have hc := hs.consistent
  cases i with
  | none =>
    refine ⟨hc.writer_rely hx hg, ?_, hx.properDirectories hs.proper, hs.seen_step hx⟩
    have hstep := hc.writer_step hx hg fun id hr hid k => by
      subst hr
      exact hok hid k
    have hstage : stage (mine none (tr ++ [(none, ⟨r, a⟩)])) = noteStage (stage (mine none tr)) ⟨r, a⟩ := by
      rw [mine_append, mine_self]
      exact stage_step rfl rfl
    have hlook : ∀ k : κ, look sid (mine (some k) (tr ++ [(none, ⟨r, a⟩)])) = look sid (mine (some k) tr) := by
      intro k
      rw [mine_append, mine_other (by simp), List.append_nil]
    simpa only [hstage, hlook] using hstep
  | some k =>
    refine ⟨?_, ?_, hx.properDirectories hs.proper, hs.seen_step hx⟩
    · refine hc.reader_rely hx hg rfl hs.proper (fun d hr m hm => ?_) fun d hr => ?_
      · subst hr
        exact hok m hm
      · subst hr
        exact hs.seen k d hg
    · have hstage : stage (mine none (tr ++ [(some k, ⟨r, a⟩)])) = stage (mine none tr) := by
        rw [mine_append, mine_other (by simp), List.append_nil]
      rw [hstage]
      refine hc.reader_step hx hg (fun file hr => ?_) ?_ fun j hj => ?_
      · subst hr
        exact hok
      · rw [mine_append, mine_self, look_snoc]
      · rw [mine_append, mine_other (by simpa using Ne.symm hj), List.append_nil]

end

/-- **What readers say of a session being written.** In every run whose steps
are all outside the gaps, a reader that is done has said that the session is
missing or busy, or what its prompt is. -/
theorem readers_truthful [DecidableEq κ] {sid prompt : String} {sources : Sources} {action : WriterAction}
    {readers : κ → Reader} {s : FileSystem (Option κ)} {tr : Trace (Option κ) FsAnswer}
    {w : World (Option κ) FsRequest FsAnswer Outcome (FileSystem (Option κ))} (hvalid : validId sid = true)
    (habsent : s.sessions sid = none) (hproper : ProperDirectories s)
    (hrun : Run Exec (Undisturbed sid) (begin sources prompt action readers s) tr w) {k : κ} {x : Outcome}
    (hx : w.prog (some k) = .ret x) : Truthful sid prompt x := by
  have hmeets : ∀ i, ((begin sources prompt action readers s).prog i).Meets (partyContract sid prompt i)
      (fun _ x => i ≠ none → Truthful sid prompt x) [] := by
    intro i
    cases i with
    | none => exact (writerProgram_meets sources prompt action).mono fun _ _ _ h => absurd rfl h
    | some k => exact ((readers k).program_meets hvalid).mono fun _ _ h _ => h
  obtain ⟨-, hw⟩ := Run.invariant (C := partyContract sid prompt) (Q := fun i _ x => i ≠ none → Truthful sid prompt x)
    (I := Steady sid prompt) (Steady.initial habsent hproper) hmeets
    (fun tr s i r a s' hs hg hx hok => hs.step hg hx hok) hrun
  have hk := hw (some k)
  rw [hx] at hk
  exact hk nofun

/-! ## One writer and one reader -/

/-- No sessions, in directories that are both as given. -/
def sampleStore (directory : Option Metadata) : FileSystem (Option Unit) where
  directories := fun _ => directory
  sessions := fun _ => none
  inodes := fun _ => { kind := .file, mode := 0, nlink := 0, bytes := [], exclusive := none, shared := fun _ => false }
  next := 0

def privateDirectory : Metadata where
  kind := .directory
  mode := 0o700
  ino := 0
  nlink := 1
  len := 0

/-- The sample session is written while it is shown. -/
def sampleBegin (action : WriterAction) (directory : Option Metadata) :
    World (Option Unit) FsRequest FsAnswer Outcome (FileSystem (Option Unit)) :=
  begin (sampleSession.sources sampleSources.ids sampleSources.times) sampleSession.prompt action
    (fun _ => .showing sampleSession.sessionId) (sampleStore directory)

theorem properDirectories_sampleStore : ProperDirectories (sampleStore (some privateDirectory)) := by
  intro d m hd
  cases hd
  rfl

/-- A reader opens and checks the file while its answer is appended, one call
of each in turn, and shows the session once the file is dropped. -/
theorem readers_truthful_sample : ∃ (tr : Trace (Option Unit) FsAnswer)
    (w : World (Option Unit) FsRequest FsAnswer Outcome (FileSystem (Option Unit))) (x : Outcome),
    Run Exec (Undisturbed sampleSession.sessionId) (sampleBegin (.appendAssistant "é\n") (some privateDirectory)) tr w ∧
    x = .shown sampleSession.sessionId (.ok (sampleSession.shown (some (.assistant "é\n")) false)) ∧
    w.prog (some ()) = .ret x ∧ Truthful sampleSession.sessionId sampleSession.prompt x := by
  have hdone : outcome (Undisturbed sampleSession.sessionId) FileSystem.answer
      (List.replicate 16 none ++ (List.replicate 6 [some (), none]).flatten ++ List.replicate 7 (some ()))
      (sampleBegin (.appendAssistant "é\n") (some privateDirectory)) (some ()) = some (.shown sampleSession.sessionId (.ok (sampleSession.shown (some (.assistant "é\n")) false))) := by
    decide +kernel
  obtain ⟨tr, w, hrun, hx⟩ := Run.of_outcome Exec.of_answer _ hdone
  exact ⟨tr, w, _, hrun, rfl, hx,
    readers_truthful (sampleSession.valid _ List.mem_cons_self) rfl properDirectories_sampleStore hrun hx⟩

/-- A reader opens and locks the new file before its writer does: to it the
file is empty, and the session corrupt. -/
theorem unlocked_seen : ∃ (tr : Trace (Option Unit) FsAnswer)
    (w : World (Option Unit) FsRequest FsAnswer Outcome (FileSystem (Option Unit))),
    Run Exec anyStep (sampleBegin .drop (some privateDirectory)) tr w ∧
    w.prog (some ()) = .ret (.shown sampleSession.sessionId (.error .corrupt)) ∧
    ¬Truthful sampleSession.sessionId sampleSession.prompt (.shown sampleSession.sessionId (.error .corrupt)) := by
  have hdone : outcome anyStep FileSystem.answer (List.replicate 7 none ++ List.replicate 13 (some ()))
      (sampleBegin .drop (some privateDirectory)) (some ()) = some (.shown sampleSession.sessionId (.error .corrupt)) := by
    decide +kernel
  obtain ⟨tr, w, hrun, hx⟩ := Run.of_outcome Exec.of_answer _ hdone
  exact ⟨tr, w, hrun, hx, fun h => by rcases h rfl with h | h <;> cases h⟩

/-- A reader has the file open when it is rolled back: it is no longer the
one at the path. -/
theorem removal_seen : ∃ (tr : Trace (Option Unit) FsAnswer)
    (w : World (Option Unit) FsRequest FsAnswer Outcome (FileSystem (Option Unit))),
    Run Exec anyStep (sampleBegin .rollback (some privateDirectory)) tr w ∧
    w.prog (some ()) = .ret (.shown sampleSession.sessionId (.error .storeUnavailable)) :=
  Run.of_outcome Exec.of_answer (List.replicate 16 none ++ List.replicate 4 (some ()) ++ List.replicate 4 none ++
    List.replicate 3 (some ())) (by decide +kernel)

/-- A reader sees the new directory before it is closed to others. -/
theorem openDirectory_seen : ∃ (tr : Trace (Option Unit) FsAnswer)
    (w : World (Option Unit) FsRequest FsAnswer Outcome (FileSystem (Option Unit))),
    Run Exec anyStep (sampleBegin .drop none) tr w ∧
    w.prog (some ()) = .ret (.shown sampleSession.sessionId (.error .storeUnavailable)) :=
  Run.of_outcome Exec.of_answer [none, none, some ()] (by decide +kernel)

end AgentHarness.SessionLog
