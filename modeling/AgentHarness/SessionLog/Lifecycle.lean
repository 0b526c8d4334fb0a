/-
Sessions over whole runs of a store. Any number of parties start sessions,
end them, roll them back, drop their writers, show and list, one operation
at a time and in any order. What has been done under an id so far is its
life; what is stored of it, who has its writer and what is shown of it is
what its life says.
-/
import AgentHarness.SessionLog.Atomic

namespace AgentHarness.SessionLog

open Text Except Interact

/-! ## Operations -/

/-- The files, and who has a writer. A party has no file open between its
operations but the one that it writes. -/
structure Store (ι : Type) where
  files : FileSystem ι
  writers : ι → Option FileWriter

/-- What was asked for, and what was returned. -/
inductive Operation where
  | started (prompt : String) (result : Except CreateError String)
  | appended (id : String) (outcome : ProjectedTerminal) (result : Except AppendError Unit)
  | rolledBack (id : String) (result : Except FileWriter.RollbackError Unit)
  | dropped (id : String)
  | shown (id : String) (result : Except ShowError ShowResult)
  | listed (limits : ListLimits) (result : Except ListError (List SessionSummary))

/-- The writer, with these ids and times to be drawn next: who else draws from
the same source meanwhile is not said. -/
def FileWriter.drawing (w : FileWriter) (ids : List String) (times : List UInt64) : FileWriter :=
  { w with writer := { w.writer with sources := { w.writer.sources with ids, times } } }

section
variable {ι : Type} [DecidableEq ι]

/-- The store after an operation of one party. -/
def Store.after (s : Store ι) (i : ι) (files : FileSystem ι) (writer : Option FileWriter) : Store ι where
  files
  writers := Function.update s.writers i writer

/-- An operation, from its call to its return. -/
inductive Step (i : ι) (s : Store ι) : Operation → Store ι → Prop
  | start {files x} (src : Sources) (prompt : String) : s.writers i = none →
      Returns Exec i s.files (startFile src prompt).run files x →
      Step i s (.started prompt (x.map fun w => w.writer.sessionId)) (s.after i files x.toOption)
  | append {w files x} (outcome : ProjectedTerminal) (ids : List String) (times : List UInt64) : s.writers i = some w →
      Returns Exec i s.files ((w.drawing ids times).append outcome) files x →
      Step i s (.appended w.writer.sessionId outcome x) (s.after i files none)
  | rollback {w files x} : s.writers i = some w → Returns Exec i s.files w.rollback.run files x →
      Step i s (.rolledBack w.writer.sessionId x) (s.after i files none)
  | drop {w files x} : s.writers i = some w → Returns Exec i s.files (request (.close w.file)) files x →
      Step i s (.dropped w.writer.sessionId) (s.after i files none)
  | inspect {files x} (id : String) : s.writers i = none → Returns Exec i s.files (showSession id).run files x →
      Step i s (.shown id x) (s.after i files none)
  | list {files x} (limits : ListLimits) : s.writers i = none → Returns Exec i s.files (listFile limits).run files x →
      Step i s (.listed limits x) (s.after i files none)

/-- Operations of any parties, one after the other. -/
inductive Store.Reaches (s : Store ι) : List Operation → Store ι → Prop
  | nil : Reaches s [] s
  | snoc {h t i op u} : Reaches s h t → Step i t op u → Reaches s (h ++ [op]) u

end

/-- No session is stored, and nobody has a writer. The directories may be
there or not. -/
structure Store.Empty {ι : Type} (s : Store ι) : Prop where
  sessions : ∀ id, s.files.sessions id = none
  writers : ∀ i, s.writers i = none

/-! ## Lives -/

/-- What has become of an id. -/
inductive Life where
  | absent
  | live (prompt : String)
  | ended (prompt : String) (terminal : Option ProjectedTerminal)
  | removed
  deriving DecidableEq

/-- What an operation makes of the life of an id, if it may be. -/
def Life.next (id : String) (life : Life) : Operation → Option Life
  | .started prompt (.ok id') =>
    if id' = id then
      match life with
      | .absent | .removed => some (.live prompt)
      | .live _ | .ended _ _ => none
    else some life
  | .appended id' outcome result =>
    if id' = id then
      match life, result with
      | .live prompt, .ok _ => some (.ended prompt (some outcome))
      | .live prompt, .error _ => some (.ended prompt none)
      | _, _ => none
    else some life
  | .dropped id' =>
    if id' = id then
      match life with
      | .live prompt => some (.ended prompt none)
      | _ => none
    else some life
  | .rolledBack id' result =>
    if id' = id then
      match life, result with
      | .live _, .ok _ => some .removed
      | _, _ => none
    else some life
  | .started _ (.error _) | .shown _ _ | .listed _ _ => some life

/-- The life of an id after some operations. -/
def life (id : String) (h : List Operation) : Option Life := h.foldlM (Life.next id) .absent

theorem life_snoc (id : String) (h : List Operation) (op : Operation) :
    life id (h ++ [op]) = (life id h).bind fun l => l.next id op := by
  simp [life, List.foldlM_append]

/-- Nothing more happens to a session that has ended. -/
theorem Life.next_ended {id prompt : String} {terminal : Option ProjectedTerminal} {op : Operation} {l : Life}
    (h : (Life.ended prompt terminal).next id op = some l) : l = .ended prompt terminal := by
  cases op with
  | started prompt' result =>
    cases result with
    | error e => simp [next] at h; exact h.symm
    | ok id' => simp [next] at h; exact h.2.symm
  | appended id' outcome result => simp [next] at h; exact h.2.symm
  | dropped id' => simp [next] at h; exact h.2.symm
  | rolledBack id' result => simp [next] at h; exact h.2.symm
  | shown id' result => simp [next] at h; exact h.symm
  | listed limits result => simp [next] at h; exact h.symm

/-! ## What the life of an id says -/

section
variable {ι : Type}

/-- The file of an id is left alone. -/
structure FileSystem.Spares (s t : FileSystem ι) (id : String) : Prop where
  place : t.sessions id = s.sessions id
  inode : ∀ file, s.sessions id = some file → t.inodes file = s.inodes file

theorem FileSystem.Spares.holds {s t : FileSystem ι} {id : String} {file : Nat} {bytes : Bytes} {owner : Option ι}
    (h : s.Spares t id) (hs : s.Holds id file bytes owner) : t.Holds id file bytes owner :=
  ⟨h.place.trans hs.place, (h.inode file hs.place).trans hs.inode⟩

theorem FileSystem.Spares.trans {s t u : FileSystem ι} {id : String} (hst : s.Spares t id) (htu : t.Spares u id) :
    s.Spares u id :=
  ⟨htu.place.trans hst.place, fun file hfile => (htu.inode file (hst.place.trans hfile)).trans (hst.inode file hfile)⟩

variable (s : Store ι) (id : String)

/-- The party has the writer of the session. -/
def Store.Writing (i : ι) : Prop := ∃ w, s.writers i = some w ∧ w.writer.sessionId = id

variable [DecidableEq ι]

/-- Any party that has no file open is shown this of the session, and changes
nothing. -/
def Store.Shown (x : Except ShowError ShowResult) : Prop :=
  ∀ i, s.writers i = none → Alone Exec i (fun files y => files = s.files ∧ y = x) s.files (showSession id).run

/-- What there is to see of a session in each part of its life. -/
def Store.Presents : Life → Prop
  | .absent => s.files.sessions id = none ∧ ∀ i, ¬s.Writing id i
  | .live _ => s.files.sessions id ≠ none ∧ (∃! i, s.Writing id i) ∧ s.Shown id (.error .busy)
  | .ended prompt terminal => s.files.sessions id ≠ none ∧ (∀ i, ¬s.Writing id i) ∧
    ∃ session : Session, session.sessionId = id ∧ session.prompt = prompt ∧ s.Shown id (.ok (session.shown terminal false))
  | .removed => s.files.sessions id = none ∧ (∀ i, ¬s.Writing id i) ∧ s.Shown id (.error .missing)

end

/-! ## The invariant -/

section
variable {ι : Type}

/-- The writer's file has the first records of its session, under its lock. -/
structure Owns (s : FileSystem ι) (i : ι) (w : FileWriter) (prompt : String) (session : Session) : Prop where
  writes : w.Writes session
  prompt : session.prompt = prompt
  holds : s.Holds session.sessionId w.file (session.bytes none) (some i)

/-- The session's file has its end, if any, and nobody has its lock. -/
structure Rests (s : FileSystem ι) (id prompt : String) (session : Session) (t : Option session.Terminal) (file : Nat) :
    Prop where
  sessionId : session.sessionId = id
  prompt : session.prompt = prompt
  fits : session.LinesFit t
  size : (session.bytes t).length ≤ maxSessionBytes
  holds : s.Holds id file (session.bytes t) none

/-- The files of an id, as its life has them. -/
def Tended (s : Store ι) (id : String) : Life → Prop
  | .absent | .removed => s.files.sessions id = none
  | .live _ => ∃ i w, s.writers i = some w ∧ w.writer.sessionId = id
  | .ended prompt terminal => ∃ session t file, terminal = t.map Session.Terminal.outcome ∧
    Rests s.files id prompt session t file

/-- Ids have files of their own, writers have theirs, and every file is as the
life of its id has it. -/
structure Kept (s : Store ι) (L : String → Life) : Prop where
  fresh : ∀ id file, s.files.sessions id = some file → file < s.files.next
  distinct : ∀ id id' file, s.files.sessions id = some file → s.files.sessions id' = some file → id = id'
  owned : ∀ i w, s.writers i = some w → ∃ prompt session, L w.writer.sessionId = .live prompt ∧
    Owns s.files i w prompt session
  tended : ∀ id, Tended s id (L id)
  known : ∀ id, L id ≠ .absent → validId id = true ∧ ∀ d, s.files.Private d

variable {s t : Store ι} {L : String → Life} {i j : ι} {id : String} {w w' : FileWriter}

/-- What is left alone stays as the life of its id has it. -/
theorem Tended.spared {l : Life} (h : Tended s id l) (hspares : s.files.Spares t.files id)
    (hwriters : ∀ i w, s.writers i = some w → w.writer.sessionId = id → t.writers i = some w) : Tended t id l := by
  cases l with
  | absent | removed => exact hspares.place.trans h
  | live prompt =>
    obtain ⟨i, w, hw, hid⟩ := h
    exact ⟨i, w, hwriters i w hw hid, hid⟩
  | ended prompt terminal =>
    obtain ⟨session, t', file, hterminal, h⟩ := h
    exact ⟨session, t', file, hterminal, h.sessionId, h.prompt, h.fits, h.size, hspares.holds h.holds⟩

theorem Owns.spared {prompt : String} {session : Session} (h : Owns s.files i w prompt session)
    (hspares : s.files.Spares t.files w.writer.sessionId) : Owns t.files i w prompt session :=
  ⟨h.writes, h.prompt, (h.writes.sessionId ▸ hspares).holds h.holds⟩

theorem Store.Empty.kept (h : s.Empty) : Kept s fun _ => .absent where
  fresh id file hfile := by simp [h.sessions id] at hfile
  distinct id _ file hfile := by simp [h.sessions id] at hfile
  owned i w hw := by simp [h.writers i] at hw
  tended := h.sessions
  known _ h := absurd rfl h

/-- A session has one writer. -/
theorem Kept.writer_unique (hk : Kept s L) (hi : s.writers i = some w) (hj : s.writers j = some w')
    (hid : w'.writer.sessionId = w.writer.sessionId) : j = i := by
  obtain ⟨p, session, -, howns⟩ := hk.owned i w hi
  obtain ⟨p', session', -, howns'⟩ := hk.owned j w' hj
  rw [howns.writes.sessionId, howns'.writes.sessionId] at hid
  have hfile : w'.file = w.file := Option.some.inj (howns'.holds.place.symm.trans (hid ▸ howns.holds.place))
  have hinode := howns'.holds.inode.symm.trans (hfile ▸ howns.holds.inode)
  exact Option.some.inj (congrArg Inode.exclusive hinode)

theorem Kept.stored (hk : Kept s L) (hw : s.writers i = some w) : s.files.sessions w.writer.sessionId = some w.file := by
  obtain ⟨_, session, -, howns⟩ := hk.owned i w hw
  rw [howns.writes.sessionId]
  exact howns.holds.place

/-- An id that a writer has is a valid one, in private directories. -/
theorem Kept.writer_known (hk : Kept s L) (hw : s.writers i = some w) :
    validId w.writer.sessionId = true ∧ ∀ d, s.files.Private d := by
  obtain ⟨prompt, _, hlive, -⟩ := hk.owned i w hw
  exact hk.known _ (by rw [hlive]; nofun)

theorem Kept.not_writing (hk : Kept s L) (hlife : ∀ prompt, L id ≠ .live prompt) (i : ι) : ¬s.Writing id i := by
  intro hwriting
  obtain ⟨w, hw, rfl⟩ := hwriting
  obtain ⟨prompt, _, hlive, -⟩ := hk.owned i w hw
  exact hlife prompt hlive

/-- What is not stored has never been, or has been rolled back. -/
theorem Kept.not_stored (hk : Kept s L) (h : s.files.sessions id = none) : L id = .absent ∨ L id = .removed := by
  have htended := hk.tended id
  cases hl : L id with
  | absent => exact .inl rfl
  | removed => exact .inr rfl
  | live prompt =>
    rw [hl] at htended
    obtain ⟨j, w, hw, rfl⟩ := htended
    rw [hk.stored hw] at h
    cases h
  | ended prompt terminal =>
    rw [hl] at htended
    obtain ⟨_, _, _, _, hrests⟩ := htended
    rw [hrests.holds.place] at h
    cases h

theorem FileSystem.Prepared.spares {files u : FileSystem ι} (h : files.Prepared u) (id : String) : files.Spares u id := by
  rw [h.same]
  exact ⟨rfl, fun _ _ => rfl⟩

/-- Who has no writer has no lock. -/
theorem Kept.unlocked (hk : Kept s L) (hi : s.writers i = none) {file : Nat} (hfile : s.files.sessions id = some file) :
    s.files.Unlocked i file := by
  have hunlocked : ∀ {bytes owner}, s.files.Holds id file bytes owner → owner ≠ some i → s.files.Unlocked i file := by
    intro bytes owner hholds howner
    constructor <;> rw [hholds.inode]
    · exact howner
    · rfl
  have htended := hk.tended id
  cases hl : L id with
  | absent | removed =>
    rw [hl] at htended
    have hnone : s.files.sessions id = none := htended
    rw [hnone] at hfile
    cases hfile
  | live prompt =>
    rw [hl] at htended
    obtain ⟨j, w, hw, rfl⟩ := htended
    obtain ⟨_, session, -, howns⟩ := hk.owned j w hw
    obtain rfl : w.file = file := Option.some.inj ((hk.stored hw).symm.trans hfile)
    refine hunlocked ⟨hfile, howns.holds.inode⟩ fun hj => ?_
    cases hj
    rw [hi] at hw
    cases hw
  | ended prompt terminal =>
    rw [hl] at htended
    obtain ⟨_, _, file', _, hrests⟩ := htended
    obtain rfl : file' = file := Option.some.inj (hrests.holds.place.symm.trans hfile)
    exact hunlocked hrests.holds nofun

/-! ### One change -/

/-- A party changes the file of one id at most, and its own writer. -/
structure Changes (i : ι) (id : String) (s t : Store ι) : Prop where
  spares : ∀ id', id' ≠ id → s.files.Spares t.files id'
  directories : ∀ d, s.files.Private d → t.files.Private d
  next : s.files.next ≤ t.files.next
  place : ∀ file, t.files.sessions id = some file →
    file < t.files.next ∧ (s.files.sessions id = some file ∨ s.files.next ≤ file)
  others : ∀ j, j ≠ i → t.writers j = s.writers j
  own : ∀ j w, s.writers j = some w → (w.writer.sessionId = id ↔ j = i)

/-- The one who writes a session is the one who changes it. -/
theorem Changes.spared {id' : String} (hc : Changes i w.writer.sessionId s t) (hw : s.writers i = some w)
    (hwriting : ¬s.Writing id' i) : s.files.Spares t.files id' :=
  hc.spares id' fun hid => hwriting ⟨w, hw, hid.symm⟩

/-- **What a change keeps**: the life of one id goes on, and its file and its
writer are as the new life has them. -/
theorem Kept.changes (hk : Kept s L) (hc : Changes i id s t) {l : Life} (htended : Tended t id l)
    (hnew : ∀ w, t.writers i = some w → w.writer.sessionId = id ∧ ∃ prompt session, l = .live prompt ∧
      Owns t.files i w prompt session)
    (hknown : l ≠ .absent → validId id = true ∧ ∀ d, t.files.Private d) : Kept t (Function.update L id l) where
  fresh id' file hfile := by
    by_cases hid : id' = id
    · subst hid
      exact (hc.place file hfile).1
    · have hlt := hk.fresh id' file ((hc.spares id' hid).place ▸ hfile)
      have := hc.next
      omega
  distinct := by
    -- a new file is none of the other ids'
    have hother : ∀ id' file, id' ≠ id → t.files.sessions id = some file → t.files.sessions id' = some file → False := by
      intro id' file hid hfile hfile'
      have hfile' := (hc.spares id' hid).place ▸ hfile'
      rcases (hc.place file hfile).2 with hs | hs
      · exact hid (hk.distinct id' id file hfile' hs)
      · have := hk.fresh id' file hfile'
        omega
    intro id₁ id₂ file h₁ h₂
    by_cases hid₁ : id₁ = id
    · by_cases hid₂ : id₂ = id
      · rw [hid₁, hid₂]
      · exact (hother id₂ file hid₂ (hid₁ ▸ h₁) h₂).elim
    · by_cases hid₂ : id₂ = id
      · exact (hother id₁ file hid₁ (hid₂ ▸ h₂) h₁).elim
      · exact hk.distinct id₁ id₂ file ((hc.spares id₁ hid₁).place ▸ h₁) ((hc.spares id₂ hid₂).place ▸ h₂)
  owned j w hw := by
    by_cases hj : j = i
    · subst hj
      obtain ⟨hid, prompt, session, hlive, howns⟩ := hnew w hw
      exact ⟨prompt, session, by rw [hid, Function.update_self, hlive], howns⟩
    · rw [hc.others j hj] at hw
      obtain ⟨prompt, session, hlive, howns⟩ := hk.owned j w hw
      have hid : w.writer.sessionId ≠ id := fun hid => hj ((hc.own j w hw).mp hid)
      refine ⟨prompt, session, ?_, howns.spared (hc.spares _ hid)⟩
      rw [Function.update_of_ne hid, hlive]
  tended id' := by
    by_cases hid : id' = id
    · subst hid
      rw [Function.update_self]
      exact htended
    · rw [Function.update_of_ne hid]
      refine (hk.tended id').spared (hc.spares id' hid) fun j w hw hwid => ?_
      have hj : j ≠ i := fun hj => hid (hwid.symm.trans ((hc.own j w hw).mpr hj))
      exact (hc.others j hj).trans hw
  known id' h := by
    by_cases hid : id' = id
    · subst hid
      rw [Function.update_self] at h
      exact hknown h
    · rw [Function.update_of_ne hid] at h
      obtain ⟨hvalid, hprivate⟩ := hk.known id' h
      exact ⟨hvalid, fun d => hc.directories d (hprivate d)⟩

/-! ### Each operation's change -/

variable [DecidableEq ι] {files u : FileSystem ι} {prompt : String} {session : Session}

theorem after_none (hi : s.writers i = none) : (s.after i files none).writers = s.writers :=
  Function.update_eq_self_iff.mpr hi.symm

/-- Who only prepares the directories, or does nothing, changes no life. -/
theorem Kept.prepared (hk : Kept s L) (hi : s.writers i = none) (hp : s.files.Prepared files) :
    Kept (s.after i files none) L := by
  have hwriters : (s.after i files none).writers = s.writers := after_none hi
  have hnext : files.next = s.files.next := by rw [hp.same]
  refine ⟨fun id file h => ?_, fun id id' file h h' => ?_, fun j w hw => ?_, fun id => ?_, fun id h => ?_⟩
  · have hlt := hk.fresh id file ((hp.spares id).place ▸ h)
    exact hnext ▸ hlt
  · exact hk.distinct id id' file ((hp.spares id).place ▸ h) ((hp.spares id').place ▸ h')
  · obtain ⟨prompt, session, hlive, howns⟩ := hk.owned j w (hwriters ▸ hw)
    exact ⟨prompt, session, hlive, howns.spared (hp.spares _)⟩
  · exact (hk.tended id).spared (hp.spares id) fun j w hw _ => hwriters ▸ hw
  · obtain ⟨hvalid, hprivate⟩ := hk.known id h
    exact ⟨hvalid, fun d => hp.kept d (hprivate d)⟩

/-- A new file changes no other. -/
theorem Kept.changes_add (hk : Kept s L) (hi : s.writers i = none) (habsent : s.files.sessions id = none) (inode : Inode ι)
    (writer : Option FileWriter) : Changes i id s (s.after i (s.files.add id inode) writer) where
  spares id' hid := by
    refine ⟨Function.update_of_ne hid .., fun file hfile => Function.update_of_ne ?_ ..⟩
    have := hk.fresh id' file hfile
    omega
  directories d h := h
  next := Nat.le_succ _
  place file hfile := by
    obtain rfl : s.files.next = file := by simpa [Store.after, FileSystem.add] using hfile
    exact ⟨Nat.lt_succ_self _, .inr (Nat.le_refl _)⟩
  others j hj := Function.update_of_ne hj ..
  own j w hw := by
    constructor
    · intro hid
      rw [← hid, hk.stored hw] at habsent
      cases habsent
    · intro hj
      rw [hj, hi] at hw
      cases hw

/-- A writer changes no file but its own. -/
theorem Kept.changes_own (hk : Kept s L) (hw : s.writers i = some w)
    (hsessions : ∀ id', id' ≠ w.writer.sessionId → files.sessions id' = s.files.sessions id')
    (hplace : ∀ file, files.sessions w.writer.sessionId = some file → file = w.file)
    (hinodes : ∀ file, file ≠ w.file → files.inodes file = s.files.inodes file)
    (hdirectories : files.directories = s.files.directories) (hnext : files.next = s.files.next) :
    Changes i w.writer.sessionId s (s.after i files none) where
  spares id' hid := by
    refine ⟨hsessions id' hid, fun file hfile => hinodes file fun h => hid ?_⟩
    exact hk.distinct _ _ file hfile (h ▸ hk.stored hw)
  directories d h := by
    obtain ⟨m, hm, hprivate⟩ := h
    exact ⟨m, (congrFun hdirectories d).trans hm, hprivate⟩
  next := hnext.ge
  place file hfile := by
    obtain rfl := hplace file hfile
    exact ⟨hnext ▸ hk.fresh _ _ (hk.stored hw), .inl (hk.stored hw)⟩
  others j hj := Function.update_of_ne hj ..
  own j w' hw' := by
    constructor
    · exact fun hid => hk.writer_unique hw hw' hid
    · intro hj
      rw [hj, hw] at hw'
      cases hw'
      rfl

theorem Kept.changes_set (hk : Kept s L) (hw : s.writers i = some w) (f : Inode ι → Inode ι) :
    Changes i w.writer.sessionId s (s.after i (s.files.setInode w.file f) none) := by
  refine hk.changes_own hw (fun _ _ => rfl) (fun file hfile => ?_) (fun file hfile => ?_) rfl rfl
  · exact Option.some.inj (hfile.symm.trans (hk.stored hw))
  · exact FileSystem.setInode_other hfile _ _

theorem Kept.changes_remove (hk : Kept s L) (hw : s.writers i = some w) (f : Inode ι → Inode ι) :
    Changes i w.writer.sessionId s (s.after i ((s.files.setSession w.writer.sessionId none).setInode w.file f) none) := by
  refine hk.changes_own hw (fun id' hid => ?_) (fun file hfile => ?_) (fun file hfile => ?_) rfl rfl
  · exact Function.update_of_ne hid ..
  · simp [FileSystem.setInode, FileSystem.setSession] at hfile
  · exact FileSystem.setInode_other hfile _ _

theorem after_self (s : Store ι) (i : ι) (files : FileSystem ι) (writer : Option FileWriter) :
    (s.after i files writer).writers i = writer := Function.update_self ..

/-- **A session that is started is live**, and its id was not in use. -/
theorem Kept.starts (hk : Kept s L) (hi : s.writers i = none) (hp : s.files.Prepared u) (hprivate : ∀ d, u.Private d)
    (hs : Starts i prompt u files w session) :
    (L session.sessionId = .absent ∨ L session.sessionId = .removed) ∧
      Kept (s.after i files (some w)) (Function.update L session.sessionId (.live prompt)) := by
  have hk' := hk.prepared hi hp
  have hi' : (s.after i u none).writers i = none := after_self s i u none
  have hstore : (s.after i u none).after i files (some w) = s.after i files (some w) := by
    simp [Store.after]
  refine ⟨hk.not_stored ((hp.spares _).place.symm.trans hs.absent), ?_⟩
  rw [← hstore, hs.added]
  refine hk'.changes (hk'.changes_add hi' hs.absent _ _) ?_ ?_ ?_
  · exact ⟨i, w, after_self .., hs.writes.sessionId⟩
  · intro w' hw'
    rw [after_self] at hw'
    cases hw'
    refine ⟨hs.writes.sessionId, prompt, session, rfl, hs.writes, hs.prompt, ?_⟩
    rw [hs.file]
    exact u.holds_add _ _ _
  · exact fun _ => ⟨session.valid _ List.mem_cons_self, hprivate⟩

/-- A session whose writer has ended it, or is dropped, rests. -/
theorem Kept.ends (hk : Kept s L) (hw : s.writers i = some w) (howns : Owns s.files i w prompt session)
    {t : Option session.Terminal} (hfit : session.LinesFit t) (hsize : (session.bytes t).length ≤ maxSessionBytes) :
    Kept (s.after i (s.files.setInode w.file fun _ => sessionInode (session.bytes t) none) none)
      (Function.update L w.writer.sessionId (.ended prompt (t.map Session.Terminal.outcome))) := by
  have hid := howns.writes.sessionId
  refine hk.changes (hk.changes_set hw _) ?_ ?_ ?_
  · refine ⟨session, t, w.file, rfl, hid.symm, howns.prompt, hfit, hsize, ?_⟩
    rw [hid]
    exact howns.holds.set _ _
  · intro w' hw'
    rw [after_self] at hw'
    cases hw'
  · exact fun _ => hk.writer_known hw

/-- A session that is rolled back is gone. -/
theorem Kept.removes (hk : Kept s L) (hw : s.writers i = some w) (f : Inode ι → Inode ι) :
    Kept (s.after i ((s.files.setSession w.writer.sessionId none).setInode w.file f) none)
      (Function.update L w.writer.sessionId .removed) := by
  refine hk.changes (hk.changes_remove hw f) ?_ ?_ ?_
  · simp [Tended, Store.after, FileSystem.setInode, FileSystem.setSession]
  · intro w' hw'
    rw [after_self] at hw'
    cases hw'
  · exact fun _ => hk.writer_known hw

/-! ### Every step -/

variable {op : Operation} {L' : String → Life}

/-- What comes of a store in a step of one party: each life goes on, and no
file is changed but that of the party's own session. -/
structure Goes (i : ι) (s : Store ι) (L : String → Life) (op : Operation) (t : Store ι) (L' : String → Life) : Prop where
  lives : ∀ id, (L id).next id op = some (L' id)
  kept : Kept t L'
  spares : ∀ id, s.files.sessions id ≠ none → ¬s.Writing id i → s.files.Spares t.files id

theorem lives_update {l : Life} (h : (L id).next id op = some l)
    (hothers : ∀ id', id' ≠ id → (L id').next id' op = some (L id')) (id' : String) :
    (L id').next id' op = some (Function.update L id l id') := by
  by_cases hid : id' = id
  · subst hid
    rw [Function.update_self, h]
  · rw [Function.update_of_ne hid, hothers id' hid]

theorem Kept.step_start (hk : Kept s L) {x : Except CreateError FileWriter} {src : Sources} (hi : s.writers i = none)
    (hr : Returns Exec i s.files (startFile src prompt).run files x) :
    ∃ L', Goes i s L (.started prompt (x.map fun w => w.writer.sessionId)) (s.after i files x.toOption) L' := by
  obtain ⟨u, hp, ⟨e, rfl, rfl⟩ | ⟨w, session, rfl, hprivate, hs⟩⟩ := (startFile_alone src prompt).returns hr
  · exact ⟨L, fun _ => rfl, hk.prepared hi hp, fun id _ _ => hp.spares id⟩
  · obtain ⟨hlife, hkept⟩ := hk.starts hi hp hprivate hs
    refine ⟨_, fun id => lives_update ?_ (fun id hid => ?_) id, hkept, fun id hstored _ => ?_⟩
    · rcases hlife with h | h <;> simp [Life.next, Except.map, h, hs.writes.sessionId]
    · simp [Life.next, Except.map, hs.writes.sessionId, Ne.symm hid]
    · have hid : id ≠ session.sessionId := by
        intro hid
        subst hid
        exact hstored ((hp.spares _).place.symm.trans hs.absent)
      have hadds := (hk.prepared hi hp).changes_add (after_self s i u none) hs.absent
        (sessionInode (session.bytes none) (some i)) (some w)
      have hspares : u.Spares files id := hs.added ▸ hadds.spares id hid
      exact (hp.spares id).trans hspares

theorem Kept.step_append (hk : Kept s L) {x : Except AppendError Unit} {outcome : ProjectedTerminal} {ids : List String}
    {times : List UInt64} (hw : s.writers i = some w)
    (hr : Returns Exec i s.files ((w.drawing ids times).append outcome) files x) :
    ∃ L', Goes i s L (.appended w.writer.sessionId outcome x) (s.after i files none) L' := by
  obtain ⟨prompt, session, hlive, howns⟩ := hk.owned i w hw
  obtain ⟨ids₀, times₀, hwriter⟩ := howns.writes.writer
  have hdrawing : (w.drawing ids times).writer = session.writer ids times := by
    rw [FileWriter.drawing, hwriter]
    rfl
  have hid := howns.writes.sessionId
  have hholds : s.files.Holds (w.drawing ids times).writer.sessionId (w.drawing ids times).file (session.bytes none)
      (some i) := by
    have h := howns.holds
    rw [← hid] at h
    exact h
  obtain ⟨rfl, rfl⟩ := (append_alone hholds outcome).returns hr
  rw [hdrawing]
  have hothers : ∀ x id, id ≠ w.writer.sessionId →
      (L id).next id (.appended w.writer.sessionId outcome x) = some (L id) := by
    intro x id hne
    simp [Life.next, Ne.symm hne]
  cases happend : Session.append (session.writer ids times) outcome (session.bytes none) with
  | error e =>
    refine ⟨_, lives_update ?_ (hothers _), hk.ends hw howns howns.writes.fits howns.writes.size,
      fun id _ => (hk.changes_set hw _).spared hw⟩
    simp [Life.next, hlive, Except.map]
  | ok B =>
    obtain ⟨t, rfl, hfit, hsize, rfl⟩ := Session.append_bytes howns.writes.fits happend
    refine ⟨_, lives_update ?_ (hothers _), hk.ends hw howns hfit hsize,
      fun id _ => (hk.changes_set hw _).spared hw⟩
    simp [Life.next, hlive, Except.map]

theorem Kept.step_rollback (hk : Kept s L) {x : Except FileWriter.RollbackError Unit} (hw : s.writers i = some w)
    (hr : Returns Exec i s.files w.rollback.run files x) :
    ∃ L', Goes i s L (.rolledBack w.writer.sessionId x) (s.after i files none) L' := by
  obtain ⟨prompt, session, hlive, howns⟩ := hk.owned i w hw
  have hholds : s.files.Holds w.writer.sessionId w.file (session.bytes none) (some i) := by
    rw [howns.writes.sessionId]
    exact howns.holds
  obtain ⟨rfl, rfl⟩ := (rollback_alone hholds).returns hr
  refine ⟨_, lives_update ?_ fun id hne => ?_, hk.removes hw _, fun id _ => (hk.changes_remove hw _).spared hw⟩
  · simp [Life.next, hlive]
  · simp [Life.next, Ne.symm hne]

theorem Kept.step_drop (hk : Kept s L) {x : Unit} (hw : s.writers i = some w)
    (hr : Returns Exec i s.files (request (.close w.file)) files x) :
    ∃ L', Goes i s L (.dropped w.writer.sessionId) (s.after i files none) L' := by
  obtain ⟨prompt, session, hlive, howns⟩ := hk.owned i w hw
  have hclose : Alone Exec i (fun t _ => t = s.files.setInode w.file fun _ => sessionInode (session.bytes none) none) s.files
      (request (.close w.file)) := (alone_ask_of_answers (Exec.answers_sure (close_sure howns.holds))).mpr rfl
  obtain rfl := hclose.returns hr
  refine ⟨_, lives_update ?_ fun id hne => ?_, hk.ends hw howns howns.writes.fits howns.writes.size,
    fun id _ => (hk.changes_set hw _).spared hw⟩
  · simp [Life.next, hlive]
  · simp [Life.next, Ne.symm hne]

theorem Kept.step_quiet (hk : Kept s L) (hi : s.writers i = none) (hfiles : files = s.files)
    (hop : ∀ id l, Life.next id l op = some l) : ∃ L', Goes i s L op (s.after i files none) L' := by
  subst hfiles
  exact ⟨L, fun id => hop id _, hk.prepared hi (.refl _), fun _ _ _ => ⟨rfl, fun _ _ => rfl⟩⟩

/-- **Every step keeps the store.** -/
theorem Kept.step (hk : Kept s L) (hs : Step i s op t) : ∃ L', Goes i s L op t L' := by
  cases hs with
  | start src prompt hi hr => exact hk.step_start hi hr
  | append outcome ids times hw hr => exact hk.step_append hw hr
  | rollback hw hr => exact hk.step_rollback hw hr
  | drop hw hr => exact hk.step_drop hw hr
  | inspect id hi hr =>
    exact hk.step_quiet hi ((showSession_same fun _ h => hk.unlocked hi h).returns hr) fun _ _ => rfl
  | list limits hi hr =>
    exact hk.step_quiet hi ((listFile_same (fun _ _ h => hk.unlocked hi h) limits).returns hr) fun _ _ => rfl

/-- **So does every run.** -/
theorem Store.Reaches.kept {h : List Operation} (hs : s.Empty) (hr : s.Reaches h t) :
    ∃ L, Kept t L ∧ ∀ id, life id h = some (L id) := by
  induction hr with
  | nil => exact ⟨_, hs.kept, fun _ => rfl⟩
  | snoc _ hstep ih =>
    obtain ⟨L, hk, hlives⟩ := ih
    obtain ⟨L', hgoes⟩ := hk.step hstep
    refine ⟨L', hgoes.kept, fun id => ?_⟩
    rw [life_snoc, hlives id, Option.bind_some, hgoes.lives id]

/-! ## What the store presents -/

theorem Kept.shown (hk : Kept s L) {x : Except ShowError ShowResult} (hlife : L id ≠ .absent)
    (hx : s.files.still.outcome id = x) : s.Shown id x := by
  intro i hi
  rw [← hx]
  exact showSession_alone (hk.known id hlife).1 fun _ h => hk.unlocked hi h

theorem Kept.presents (hk : Kept s L) (id : String) : s.Presents id (L id) := by
  have htended := hk.tended id
  cases hl : L id with
  | absent =>
    rw [hl] at htended
    exact ⟨htended, hk.not_writing (by simp [hl])⟩
  | removed =>
    rw [hl] at htended
    have hlife : L id ≠ .absent := by simp [hl]
    have hmissing := FileSystem.outcome_absent (hk.known id hlife).2 htended
    exact ⟨htended, hk.not_writing (by simp [hl]), hk.shown hlife hmissing⟩
  | live prompt =>
    rw [hl] at htended
    obtain ⟨i, w, hw, rfl⟩ := htended
    obtain ⟨_, session, -, howns⟩ := hk.owned i w hw
    have hlife : L w.writer.sessionId ≠ .absent := by simp [hl]
    have hholds := howns.holds
    rw [← howns.writes.sessionId] at hholds
    refine ⟨by simp [hk.stored hw], ⟨i, ⟨w, hw, rfl⟩, ?_⟩, ?_⟩
    · intro j hwriting
      obtain ⟨w', hw', hid⟩ := hwriting
      exact hk.writer_unique hw hw' hid
    · exact hk.shown hlife (hholds.outcome (hk.known _ hlife).2 howns.writes.size)
  | ended prompt terminal =>
    rw [hl] at htended
    obtain ⟨session, t, file, rfl, hrests⟩ := htended
    have hlife : L id ≠ .absent := by simp [hl]
    refine ⟨by simp [hrests.holds.place], hk.not_writing (by simp [hl]), session, hrests.sessionId, hrests.prompt, ?_⟩
    refine hk.shown hlife ((hrests.holds.outcome (hk.known id hlife).2 hrests.size).trans ?_)
    rw [← hrests.sessionId, session.project_bytes hrests.fits hrests.size]
    rfl

/-- A session that has ended is never changed again. -/
theorem Kept.run_ended (hk : Kept s L) {prompt : String} {terminal : Option ProjectedTerminal}
    (hended : L id = .ended prompt terminal) {h : List Operation} (hr : s.Reaches h t) :
    ∃ L', Kept t L' ∧ L' id = .ended prompt terminal ∧ s.files.Spares t.files id := by
  induction hr with
  | nil => exact ⟨L, hk, hended, rfl, fun _ _ => rfl⟩
  | snoc _ hstep ih =>
    obtain ⟨L', hk', hended', hspares⟩ := ih
    obtain ⟨L'', hgoes⟩ := hk'.step hstep
    have hpresents := hk'.presents id
    rw [hended'] at hpresents
    have hlives := hgoes.lives id
    rw [hended'] at hlives
    exact ⟨L'', hgoes.kept, Life.next_ended hlives, hspares.trans (hgoes.spares id hpresents.1 (hpresents.2.1 _))⟩

/-- **The lives of sessions.** After any operations on a store that was empty,
what is stored and shown of each id is what was done under it last. Starting
a session takes an id that is not stored and changes no session that is, and
a session that nobody writes any more is never changed again. -/
theorem lifecycle {s₀ : Store ι} {h : List Operation} (hempty : s₀.Empty) (hrun : s₀.Reaches h s) :
    (∀ id, ∃ l, life id h = some l ∧ s.Presents id l) ∧
    (∀ i prompt result t, Step i s (.started prompt result) t →
      (∀ id, result = .ok id → s.files.sessions id = none) ∧
      ∀ id, s.files.sessions id ≠ none → s.files.Spares t.files id) ∧
    ∀ id file, s.files.sessions id = some file → (∀ i, ¬s.Writing id i) → ∀ h' t, s.Reaches h' t →
      t.files.sessions id = some file ∧ (t.files.inodes file).bytes = (s.files.inodes file).bytes := by
  obtain ⟨L, hk, hlives⟩ := hrun.kept hempty
  refine ⟨fun id => ⟨L id, hlives id, hk.presents id⟩, fun i prompt result t hstep => ?_,
    fun id file hfile hnobody h' t hrun' => ?_⟩
  · obtain ⟨L', hgoes⟩ := hk.step hstep
    constructor
    · intro id hresult
      subst hresult
      have hlives := hgoes.lives id
      have hpresents := hk.presents id
      cases hl : L id with
      | absent | removed =>
        rw [hl] at hpresents
        exact hpresents.1
      | live prompt' => simp [hl, Life.next] at hlives
      | ended prompt' terminal => simp [hl, Life.next] at hlives
    · cases hstep with
      | start src _ hi hr =>
        refine fun id hstored => hgoes.spares id hstored fun hwriting => ?_
        obtain ⟨w, hw, -⟩ := hwriting
        rw [hi] at hw
        cases hw
  · have hpresents := hk.presents id
    cases hl : L id with
    | absent | removed =>
      rw [hl] at hpresents
      rw [hpresents.1] at hfile
      cases hfile
    | live prompt =>
      rw [hl] at hpresents
      obtain ⟨i, hi, -⟩ := hpresents.2.1
      exact absurd hi (hnobody i)
    | ended prompt terminal =>
      obtain ⟨_, -, -, hspares⟩ := hk.run_ended hl hrun'
      exact ⟨hspares.place.trans hfile, congrArg Inode.bytes (hspares.inode file hfile)⟩

end

def sampleEmpty : Store Bool where
  files :=
    { directories := fun _ => none
      sessions := fun _ => none
      inodes := fun _ => sessionInode [] none
      next := 0 }
  writers := fun _ => none

/-- The session is started and ended by one party; what the other is shown
has its answer. -/
theorem lifecycle_sample : ∃ (h : List Operation) (s : Store Bool), sampleEmpty.Reaches h s ∧
    life sampleSession.sessionId h = some (.ended sampleSession.prompt (some (.assistant "é\n"))) ∧
    s.Presents sampleSession.sessionId (.ended sampleSession.prompt (some (.assistant "é\n"))) := by
  have hplay : (((startFile (sampleSession.sources [] []) sampleSession.prompt).run.play FileSystem.answer false
      sampleEmpty.files).bind fun x => x.1.toOption.bind fun w =>
        (((w.drawing sampleSources.ids sampleSources.times).append (.assistant "é\n")).play FileSystem.answer false x.2).map
          fun y => (w.writer.sessionId, y.1)) = some (sampleSession.sessionId, .ok ()) := by
    decide +kernel
  obtain ⟨⟨x, files⟩, hstart, hplay⟩ := Option.bind_eq_some_iff.mp hplay
  obtain ⟨w, hw, hplay⟩ := Option.bind_eq_some_iff.mp hplay
  obtain ⟨⟨y, files'⟩, happend, hreturned⟩ := Option.map_eq_some_iff.mp hplay
  obtain rfl : x = .ok w := by
    cases x with
    | error e => cases hw
    | ok w' => exact congrArg Except.ok (Option.some.inj hw)
  obtain ⟨hid, rfl⟩ := Prod.mk.inj hreturned
  have hstarted : sampleEmpty.Reaches _ _ := .snoc .nil
    (.start _ _ rfl (.of_play Exec.of_answer hstart))
  have hended := hstarted.snoc
    (.append _ _ _ (after_self sampleEmpty false files (some w)) (.of_play Exec.of_answer happend))
  refine ⟨_, _, hended, ?_, ?_⟩
  · simp [life, Life.next, Except.map, hid]
  · obtain ⟨l, hl, hpresents⟩ := (lifecycle ⟨fun _ => rfl, fun _ => rfl⟩ hended).1 sampleSession.sessionId
    simp [life, Life.next, Except.map, hid] at hl
    exact hl ▸ hpresents

end AgentHarness.SessionLog
