/-
The session log in files and the one in memory, side by side: the same calls
to both, from the same sources of ids and times. They reply alike as long as
no entry that could be written makes its session too long. Where one does,
both refuse it, but in memory the session keeps its lock: from then on it is
busy there, and interrupted in the files.
-/
import AgentHarness.SessionLog.Listed
import AgentHarness.SessionLog.Memory
import AgentHarness.SessionLog.Sizes

namespace AgentHarness.SessionLog

open Text Except Interact
open Json (escapeByte)

/-! ## Calls -/

/-- What is asked of a log by one party: it has a writer or none. -/
inductive Invocation where
  | start (prompt : String)
  | append (outcome : ProjectedTerminal)
  | rollback
  | drop
  | inspect (id : String)
  | list (limits : ListLimits)

inductive Reply where
  | started (result : Except CreateError SessionWriter)
  | appended (result : Except AppendError Unit)
  | rolledBack (result : Except FileWriter.RollbackError Unit)
  | dropped
  | shown (result : Except ShowError ShowResult)
  | listed (result : Except ListError (List SessionSummary))

/-- The files, the writers, and the sources they all draw from. -/
structure FileLog (ι : Type) where
  store : Store ι
  sources : Sources

structure MemoryLog (ι : Type) where
  store : MemoryStore
  writers : ι → Option SessionWriter
  sources : Sources

section
variable {ι : Type} [DecidableEq ι]

/-- A call of a party to the log in files. A writer is gone once it is used. -/
inductive FileStep (i : ι) (s : FileLog ι) : Invocation → Reply → FileLog ι → Prop
  | start {files x sources} (prompt : String) : s.store.writers i = none →
      Returns ExecListed i s.store.files (startFileDrawn prompt s.sources) files (x, sources) →
      FileStep i s (.start prompt) (.started (x.map FileWriter.writer)) { store := s.store.after i files x.toOption, sources }
  | append {w files x sources} (outcome : ProjectedTerminal) : s.store.writers i = some w →
      Returns ExecListed i s.store.files (w.appendDrawn outcome s.sources) files (x, sources) →
      FileStep i s (.append outcome) (.appended x) { store := s.store.after i files none, sources }
  | rollback {w files x} : s.store.writers i = some w → Returns ExecListed i s.store.files w.rollback.run files x →
      FileStep i s .rollback (.rolledBack x) { s with store := s.store.after i files none }
  | drop {w files x} : s.store.writers i = some w →
      Returns ExecListed i s.store.files (request (.close w.file)) files x →
      FileStep i s .drop .dropped { s with store := s.store.after i files none }
  | inspect {files x} (id : String) : s.store.writers i = none →
      Returns ExecListed i s.store.files (showSession id).run files x →
      FileStep i s (.inspect id) (.shown x) { s with store := s.store.after i files none }
  | list {files x} (limits : ListLimits) : s.store.writers i = none →
      Returns ExecListed i s.store.files (listFile limits).run files x →
      FileStep i s (.list limits) (.listed x) { s with store := s.store.after i files none }

/-- The log after a call of one party. -/
def MemoryLog.after (m : MemoryLog ι) (i : ι) (store : MemoryStore) (writer : Option SessionWriter) (sources : Sources) :
    MemoryLog ι where
  store
  writers := Function.update m.writers i writer
  sources

/-- A call of a party to the log in memory. The keys of the map come in any order. -/
inductive MemoryStep (i : ι) (m : MemoryLog ι) : Invocation → Reply → MemoryLog ι → Prop
  | start {x sources store} (prompt : String) : m.writers i = none →
      m.store.startMemory prompt m.sources = (x, sources, store) →
      MemoryStep i m (.start prompt) (.started x) (m.after i store x.toOption sources)
  | append {writer x store} (outcome : ProjectedTerminal) : m.writers i = some writer →
      m.store.finish writer (writer.drawOutcome outcome m.sources).1 = (x, store) →
      MemoryStep i m (.append outcome) (.appended x) (m.after i store none (writer.drawOutcome outcome m.sources).2)
  | rollback {writer x store} : m.writers i = some writer → m.store.rollback writer = (x, store) →
      MemoryStep i m .rollback (.rolledBack x) (m.after i store none m.sources)
  | drop {writer} : m.writers i = some writer →
      MemoryStep i m .drop .dropped (m.after i (m.store.drop writer) none m.sources)
  | inspect (id : String) : m.writers i = none → MemoryStep i m (.inspect id) (.shown (m.store.showSession id)) m
  | list (limits : ListLimits) {keys : List String} : m.writers i = none → keys.Perm m.store.files.keys →
      MemoryStep i m (.list limits) (.listed (m.store.listMemory keys limits)) m

/-- A call to both logs, and what each replies. -/
structure Exchange (ι : Type) where
  party : ι
  call : Invocation
  file : Reply
  memory : Reply

/-- The same calls to both logs, each of which is allowed. -/
inductive Both (allowed : ι → MemoryLog ι → Invocation → Prop) (s₀ : FileLog ι) (m₀ : MemoryLog ι) :
    List (Exchange ι) → FileLog ι → MemoryLog ι → Prop
  | nil : Both allowed s₀ m₀ [] s₀ m₀
  | snoc {h s m i call file memory s' m'} : Both allowed s₀ m₀ h s m → allowed i m call → FileStep i s call file s' →
      MemoryStep i m call memory m' → Both allowed s₀ m₀ (h ++ [{ party := i, call, file, memory }]) s' m'

/-- The directory is not there, or nobody else is let in. -/
def FileSystem.Ready (s : FileSystem ι) (d : Directory) : Prop := s.directories d = none ∨ s.Private d

/-- Nothing is stored, and nobody has a writer. -/
structure FileLog.Empty (s : FileLog ι) : Prop where
  store : s.store.Empty
  ready : ∀ d, s.store.files.Ready d

def MemoryLog.empty (sources : Sources) : MemoryLog ι where
  store := .empty
  writers _ := none
  sources

/-- An entry that can be written leaves its session within its greatest size. -/
def Fits (i : ι) (m : MemoryLog ι) : Invocation → Prop
  | .append outcome => ∀ writer file record line, m.writers i = some writer → m.store.files[writer.sessionId]? = some file →
      (writer.drawOutcome outcome m.sources).1 = .ok record → serializeLine record = some line →
      file.bytes.length + line.length ≤ maxSessionBytes
  | _ => True

end

section
variable {ι : Type}

theorem fits_append {i : ι} {m : MemoryLog ι} {outcome : ProjectedTerminal} {writer : SessionWriter} {file : MemoryFile}
    (hwriter : m.writers i = some writer) (hfile : m.store.files[writer.sessionId]? = some file) :
    Fits i m (.append outcome) ↔ ∀ record line, (writer.drawOutcome outcome m.sources).1 = .ok record →
      serializeLine record = some line → file.bytes.length + line.length ≤ maxSessionBytes := by
  constructor
  · exact fun h record line => h writer file record line hwriter hfile
  · intro h writer' file' record line hwriter' hfile'
    cases hwriter.symm.trans hwriter'
    cases hfile.symm.trans hfile'
    exact h record line

/-! ## The same files -/

/-- The file of an id as it is in memory: locked while it has an owner. -/
def Twin (s : FileSystem ι) (id : String) : Option MemoryFile → Prop
  | none => s.sessions id = none
  | some f => f.bytes.length ≤ maxSessionBytes ∧ ∃ file owner, s.Holds id file f.bytes owner ∧ f.locked = owner.isSome

/-- Each id has the same file in both logs, and each party the same writer. -/
structure Alike (s : FileLog ι) (m : MemoryLog ι) : Prop where
  kept : ∃ L, Kept s.store L
  ready : ∀ d, s.store.files.Ready d
  sources : m.sources = s.sources
  writers : ∀ i, m.writers i = (s.store.writers i).map FileWriter.writer
  files : ∀ id, Twin s.store.files id m.store.files[id]?

variable {s t : FileSystem ι} {id : String} {file file' : Nat} {bytes bytes' : Bytes} {owner owner' : Option ι}

theorem FileSystem.Holds.unique (h : s.Holds id file bytes owner) (h' : s.Holds id file' bytes' owner') :
    file' = file ∧ bytes' = bytes ∧ owner' = owner := by
  obtain rfl : file' = file := Option.some.inj (h'.place.symm.trans h.place)
  have hinode := h'.inode.symm.trans h.inode
  exact ⟨rfl, congrArg Inode.bytes hinode, congrArg Inode.exclusive hinode⟩

/-- A file that is left alone is the same as before. -/
theorem Twin.spared {f : Option MemoryFile} (h : Twin s id f) (hspares : s.sessions id ≠ none → s.Spares t id)
    (habsent : s.sessions id = none → t.sessions id = none) : Twin t id f := by
  cases f with
  | none => exact habsent h
  | some f =>
    obtain ⟨hsize, file, owner, hholds, hlocked⟩ := h
    exact ⟨hsize, file, owner, (hspares (by simp [hholds.place])).holds hholds, hlocked⟩

theorem Kept.directories {s : Store ι} {L : String → Life} (hk : Kept s L) (h : s.files.sessions id ≠ none) :
    validId id = true ∧ ∀ d, s.files.Private d := by
  refine hk.known id fun habsent => h ?_
  have htended := hk.tended id
  rwa [habsent] at htended

end

section
variable {ι : Type} [DecidableEq ι] {i : ι} {s : FileSystem ι} {store : MemoryStore}

/-! ## Starting -/

/-- What starting a session does to the files and in memory. -/
inductive StartsAlike (i : ι) (s : FileSystem ι) (store : MemoryStore) : FileSystem ι →
    Except CreateError FileWriter × Sources → Except CreateError SessionWriter × Sources × MemoryStore → Prop
  | refused {e sources} : StartsAlike i s store s (.error e, sources) (.error e, sources, store)
  | started {w bytes sources} : bytes.length ≤ maxSessionBytes → s.sessions w.writer.sessionId = none →
      StartsAlike i s store (s.add w.writer.sessionId (sessionInode bytes (some i))) (.ok w, sources)
        (.ok w.writer, sources, { files := store.files.insert w.writer.sessionId { bytes, locked := true } })

theorem startFileWithDrawn_alone {m : Metadata} (hdirectory : s.directories .sessions = some m)
    (hstored : ∀ id, store.files.contains id = (s.sessions id).isSome) (prompt : String) (retries : Nat) (src : Sources) :
    Alone Exec i (fun t x => StartsAlike i s store t x (store.startMemoryWith prompt retries src)) s
      (startFileWithDrawn prompt retries src) := by
  induction retries generalizing src with
  | zero => exact .refused
  | succ retries ih =>
    rw [startFileWithDrawn, MemoryStore.startMemoryWith]
    cases hdrawn : drawInitial prompt src with
    | mk x src' =>
    cases x with
    | error e => exact .refused
    | ok initial =>
    have hsize : (initial.header ++ initial.user).length ≤ maxSessionBytes := by
      have hinitial := drawInitial_ok_iff.mp hdrawn
      obtain ⟨session, rfl, ids, times, rfl⟩ := initialRecords_session hinitial
      obtain ⟨-, hsize, rfl, -⟩ := session.initialRecords_sources.mp hinitial
      rw [session.initial_bytes]
      exact hsize
    refine (createPrivateFile_alone hdirectory).bind fun t x h => ?_
    rcases h with ⟨rfl, hpresent, rfl⟩ | ⟨rfl, habsent, rfl⟩
    · have htaken : store.files.contains initial.sessionId = true := by
        rw [hstored, Option.isSome_iff_ne_none]
        exact hpresent
      simp only [htaken, if_true]
      exact ih src'
    · have hfree : store.files.contains initial.sessionId = false := by
        rw [hstored, habsent]
        rfl
      simp only [hfree]
      refine (publish_alone (s.holds_add _ _ _) initial).bind fun t x h => ?_
      obtain ⟨rfl, rfl⟩ := h
      rw [FileSystem.setInode_add]
      exact .started (w := { writer := initial.writer src', file := s.next }) hsize habsent

theorem ensurePrivateDirectory_ready {d : Directory} (h : s.Ready d) :
    Alone Exec i (fun t x => x = .ok () ∧ ∃ m, t = s.setDirectory d m ∧ m.kind = .directory ∧ isPrivate m.mode = true) s
      (ensurePrivateDirectory d).run := by
  refine (ensurePrivateDirectory_alone d).mono fun t x hx => hx.resolve_right fun hno => ?_
  obtain ⟨-, -, m, hm, hkind⟩ := hno
  obtain hnone | ⟨m', hm', hkind', -⟩ := h
  · cases hm.symm.trans hnone
  · cases hm.symm.trans hm'
    exact hkind hkind'

/-- **Starting a session does the same in both logs.** -/
theorem startFileDrawn_alone (hready : ∀ d, s.Ready d) (hstored : ∀ id, store.files.contains id = (s.sessions id).isSome)
    (prompt : String) (src : Sources) :
    Alone Exec i (fun t x => ∃ u, s.Prepared u ∧ u.sessions = s.sessions ∧ (∀ d, u.Private d) ∧
      StartsAlike i u store t x (store.startMemory prompt src)) s (startFileDrawn prompt src) := by
  refine (ensurePrivateDirectory_ready (hready .application)).bind fun t x h => ?_
  obtain ⟨rfl, m, rfl, hkind, hmode⟩ := h
  have hsessions : (s.setDirectory .application m).Ready .sessions := hready .sessions
  refine (ensurePrivateDirectory_ready hsessions).bind fun t x h => ?_
  obtain ⟨rfl, m', rfl, hkind', hmode'⟩ := h
  let u := (s.setDirectory .application m).setDirectory .sessions m'
  have happlication : u.directories .application = some m := by simp [u, FileSystem.setDirectory]
  have hdirectory : u.directories .sessions = some m' := by simp [u, FileSystem.setDirectory]
  refine (startFileWithDrawn_alone hdirectory hstored prompt createRetries src).mono fun t x h => ⟨u, ?_, rfl, ?_, h⟩
  · exact (FileSystem.Prepared.setDirectory fun _ => ⟨hkind, hmode⟩).trans (.setDirectory fun _ => ⟨hkind', hmode'⟩)
  · intro d
    cases d with
    | application => exact ⟨m, happlication, hkind, hmode⟩
    | sessions => exact ⟨m', hdirectory, hkind', hmode'⟩

/-- Ending a session in files, from the sources there are. -/
theorem appendDrawn_alone {w : FileWriter} {bytes : Bytes} (h : s.Holds w.writer.sessionId w.file bytes (some i))
    (outcome : ProjectedTerminal) (src : Sources) :
    Alone Exec i (fun t x =>
      x = (((w.writer.drawOutcome outcome src).1 >>= SessionWriter.appendTerminal bytes).map (fun _ => ()),
        (w.writer.drawOutcome outcome src).2) ∧
      t = s.setInode w.file fun _ =>
        sessionInode (appended bytes ((w.writer.drawOutcome outcome src).1 >>= SessionWriter.appendTerminal bytes)) none) s
      (w.appendDrawn outcome src) := by
  refine (finish_alone h _).bind fun t x ht => ?_
  obtain ⟨rfl, rfl⟩ := ht
  exact ⟨rfl, rfl⟩

end

/-! ## One call -/

section
variable {ι : Type} {i : ι} {s : FileLog ι} {m : MemoryLog ι} {w : FileWriter} {files : FileSystem ι} {store : MemoryStore}
  {sources : Sources}

theorem FileLog.Empty.alike (h : s.Empty) : Alike s (.empty s.sources) where
  kept := ⟨_, h.store.kept⟩
  ready := h.ready
  sources := rfl
  writers i := by rw [h.store.writers i]; rfl
  files id := by
    have hnone : (MemoryLog.empty s.sources : MemoryLog ι).store.files[id]? = none := Std.HashMap.getElem?_empty
    rw [hnone]
    exact h.store.sessions id

namespace Alike

theorem stored (h : Alike s m) (id : String) : m.store.files.contains id = (s.store.files.sessions id).isSome := by
  have htwin := h.files id
  rw [Std.HashMap.contains_eq_isSome_getElem?]
  cases hf : m.store.files[id]? with
  | none =>
    rw [hf] at htwin
    have hnone : s.store.files.sessions id = none := htwin
    rw [hnone]
    rfl
  | some f =>
    rw [hf] at htwin
    obtain ⟨-, file, owner, hholds, -⟩ := htwin
    rw [hholds.place]
    rfl

theorem finite (h : Alike s m) : s.store.files.Finite := by
  refine ⟨m.store.files.keys, fun id hid => ?_⟩
  rw [Std.HashMap.mem_keys, Std.HashMap.mem_iff_contains, h.stored, Option.isSome_iff_ne_none]
  exact hid

/-- The file that a party writes. -/
theorem writing (h : Alike s m) (hw : s.store.writers i = some w) : ∃ bytes,
    m.store.files[w.writer.sessionId]? = some { bytes, locked := true } ∧ bytes.length ≤ maxSessionBytes ∧
      s.store.files.Holds w.writer.sessionId w.file bytes (some i) := by
  obtain ⟨L, hk⟩ := h.kept
  obtain ⟨prompt, session, -, howns⟩ := hk.owned i w hw
  have hholds := howns.holds
  rw [← howns.writes.sessionId] at hholds
  have htwin := h.files w.writer.sessionId
  cases hf : m.store.files[w.writer.sessionId]? with
  | none =>
    rw [hf] at htwin
    cases hholds.place.symm.trans htwin
  | some f =>
    rw [hf] at htwin
    obtain ⟨bytes, locked⟩ := f
    obtain ⟨hsize, file, owner, hholds', hlocked⟩ := htwin
    obtain ⟨rfl, rfl, rfl⟩ := hholds.unique hholds'
    obtain rfl : locked = true := hlocked
    exact ⟨_, rfl, hsize, hholds⟩

theorem writer_eq (h : Alike s m) (hw : s.store.writers i = some w) {writer : SessionWriter} (hm : m.writers i = some writer) :
    writer = w.writer := by
  rw [h.writers i, hw] at hm
  exact (Option.some.inj hm).symm

theorem writing_id (hw : s.store.writers i = some w) {id : String} (h : s.store.Writing id i) : id = w.writer.sessionId := by
  obtain ⟨w', hw', rfl⟩ := h
  rw [Option.some.inj (hw.symm.trans hw')]

variable [DecidableEq ι]

/-- A call that changes one file, if any, and the same in both logs. -/
theorem change (h : Alike s m) (id : String) {L L' : String → Life} {op : Operation} {writer : Option FileWriter}
    (hgoes : Goes i s.store L op (s.store.after i files writer) L') (hwriting : ∀ id', s.store.Writing id' i → id' = id)
    (hready : ∀ d, files.Ready d) (hsessions : ∀ id', id' ≠ id → files.sessions id' = s.store.files.sessions id')
    (hothers : ∀ id', id' ≠ id → store.files[id']? = m.store.files[id']?) (htwin : Twin files id store.files[id]?) :
    Alike { store := s.store.after i files writer, sources } (m.after i store (writer.map FileWriter.writer) sources) where
  kept := ⟨L', hgoes.kept⟩
  ready := hready
  sources := rfl
  writers j := by
    by_cases hj : j = i
    · subst hj
      simp [MemoryLog.after, Store.after]
    · simp [MemoryLog.after, Store.after, hj, h.writers j]
  files id' := by
    by_cases hid : id' = id
    · exact hid ▸ htwin
    · have hsame : (m.after i store (writer.map FileWriter.writer) sources).store.files[id']? = m.store.files[id']? :=
        hothers id' hid
      rw [hsame]
      refine (h.files id').spared (fun hstored => hgoes.spares id' hstored fun hw => hid (hwriting id' hw)) fun hnone => ?_
      exact (hsessions id' hid).trans hnone

theorem step_start (h : Alike s m) {prompt : String} {x : Except CreateError FileWriter} {y : Except CreateError SessionWriter}
    {sources' : Sources} (hi : s.store.writers i = none)
    (hr : Returns ExecListed i s.store.files (startFileDrawn prompt s.sources) files (x, sources))
    (hm : m.store.startMemory prompt m.sources = (y, sources', store)) :
    x.map FileWriter.writer = y ∧
      Alike { store := s.store.after i files x.toOption, sources } (m.after i store y.toOption sources') := by
  have hr := returns_of_listed hr
  obtain ⟨L, hk⟩ := h.kept
  obtain ⟨L', hgoes⟩ := hk.step_start hi (startFileDrawn_fst prompt s.sources ▸ hr.bind_ret)
  have hnobody : ∀ id, ¬s.store.Writing id i := by
    intro id hwriting
    obtain ⟨w, hw, -⟩ := hwriting
    rw [hi] at hw
    cases hw
  obtain ⟨u, hp, hsessions, hprivate, hs⟩ := (startFileDrawn_alone h.ready h.stored prompt s.sources).returns hr
  rw [← h.sources, hm] at hs
  cases hs with
  | refused =>
    have hready : ∀ d, files.Ready d := fun d => .inr (hprivate d)
    have htwin : Twin files "" m.store.files[""]? :=
      (h.files "").spared (fun _ => hp.spares "") fun hnone => (congrFun hsessions "").trans hnone
    exact ⟨rfl, h.change "" hgoes (fun id hw => absurd hw (hnobody id)) hready (fun id _ => congrFun hsessions id)
      (fun _ _ => rfl) htwin⟩
  | @started w bytes _ hsize habsent =>
    have hready : ∀ d, (u.add w.writer.sessionId (sessionInode bytes (some i))).Ready d := fun d => .inr (hprivate d)
    refine ⟨rfl, h.change w.writer.sessionId hgoes (fun id hw => absurd hw (hnobody id)) hready (fun id hid => ?_)
      (fun id hid => ?_) ?_⟩
    · exact (Function.update_of_ne hid ..).trans (congrFun hsessions id)
    · rw [Std.HashMap.getElem?_insert]
      simp [Ne.symm hid]
    · rw [Std.HashMap.getElem?_insert_self]
      exact ⟨hsize, _, _, u.holds_add _ _ _, rfl⟩

theorem step_append (h : Alike s m) {outcome : ProjectedTerminal} {x y : Except AppendError Unit} {writer : SessionWriter}
    (hfits : Fits i m (.append outcome)) (hw : s.store.writers i = some w)
    (hr : Returns ExecListed i s.store.files (w.appendDrawn outcome s.sources) files (x, sources))
    (hwriter : m.writers i = some writer)
    (hm : m.store.finish writer (writer.drawOutcome outcome m.sources).1 = (y, store)) :
    x = y ∧ Alike { store := s.store.after i files none, sources }
      (m.after i store none (writer.drawOutcome outcome m.sources).2) := by
  obtain rfl := h.writer_eq hw hwriter
  have hr := returns_of_listed hr
  obtain ⟨L, hk⟩ := h.kept
  obtain ⟨L', hgoes⟩ := hk.step_append hw (FileWriter.appendDrawn_fst w outcome s.sources ▸ hr.bind_ret)
  obtain ⟨bytes, hfile, hsize, hholds⟩ := h.writing hw
  obtain ⟨hx, rfl⟩ := (appendDrawn_alone hholds outcome s.sources).returns hr
  obtain ⟨rfl, rfl⟩ := Prod.mk.inj hx
  obtain ⟨hy, hfiles⟩ := MemoryStore.finish_files hfile ((fits_append hwriter hfile).mp hfits)
  rw [hm] at hy hfiles
  rw [h.sources] at hy hfiles ⊢
  refine ⟨hy.symm, h.change w.writer.sessionId hgoes (fun _ => writing_id hw) h.ready (fun _ _ => rfl) (fun id hid => ?_)
    ?_⟩
  · rw [hfiles, if_neg hid]
  · rw [hfiles, if_pos rfl]
    exact ⟨length_appended_le hsize _, _, _, hholds.set _ _, rfl⟩

theorem step_rollback (h : Alike s m) {x y : Except FileWriter.RollbackError Unit} {writer : SessionWriter}
    (hw : s.store.writers i = some w) (hr : Returns ExecListed i s.store.files w.rollback.run files x)
    (hwriter : m.writers i = some writer) (hm : m.store.rollback writer = (y, store)) :
    x = y ∧ Alike { s with store := s.store.after i files none } (m.after i store none m.sources) := by
  obtain rfl := h.writer_eq hw hwriter
  have hr := returns_of_listed hr
  obtain ⟨L, hk⟩ := h.kept
  obtain ⟨L', hgoes⟩ := hk.step_rollback hw hr
  obtain ⟨bytes, hfile, hsize, hholds⟩ := h.writing hw
  obtain ⟨rfl, rfl⟩ := (rollback_alone hholds).returns hr
  obtain ⟨rfl, rfl⟩ := Prod.mk.inj hm
  rw [h.sources, hfile]
  refine ⟨rfl, h.change w.writer.sessionId hgoes (fun _ => writing_id hw) h.ready (fun id hid => ?_)
    (fun id hid => ?_) ?_⟩
  · exact Function.update_of_ne hid ..
  · rw [Std.HashMap.getElem?_erase]
    simp [Ne.symm hid]
  · rw [Std.HashMap.getElem?_erase_self]
    exact Function.update_self ..

theorem step_drop (h : Alike s m) {x : Unit} {writer : SessionWriter} (hw : s.store.writers i = some w)
    (hr : Returns ExecListed i s.store.files (request (.close w.file)) files x) (hwriter : m.writers i = some writer) :
    Alike { s with store := s.store.after i files none } (m.after i (m.store.drop writer) none m.sources) := by
  obtain rfl := h.writer_eq hw hwriter
  have hr := returns_of_listed hr
  obtain ⟨L, hk⟩ := h.kept
  obtain ⟨L', hgoes⟩ := hk.step_drop hw hr
  obtain ⟨bytes, hfile, hsize, hholds⟩ := h.writing hw
  have hclose : Alone Exec i (fun t _ => t = s.store.files.setInode w.file fun _ => sessionInode bytes none) s.store.files
      (request (.close w.file)) := (alone_ask_of_answers (Exec.answers_sure (close_sure hholds))).mpr rfl
  obtain rfl := hclose.returns hr
  rw [h.sources]
  refine h.change w.writer.sessionId hgoes (fun _ => writing_id hw) h.ready (fun _ _ => rfl) (fun id hid => ?_) ?_
  · rw [MemoryStore.drop_files hfile, if_neg hid]
  · rw [MemoryStore.drop_files hfile, if_pos rfl]
    exact ⟨hsize, _, _, hholds.set _ _, rfl⟩

end Alike

end

/-! ## Reading -/

section
variable {ι : Type} {i : ι}

theorem FileSystem.Ready.validate {s : FileSystem ι} {d : Directory} (h : s.Ready d) :
    s.still.validate d = .error .missing ∨ s.still.validate d = .ok () := by
  rcases h with hnone | hprivate
  · have hdirectory : s.still.directory d = .error .notFound := by simp [FileSystem.still, hnone]
    rw [Still.validate, hdirectory]
    exact .inl rfl
  · exact .inr hprivate.validate

/-- A session without a file is missing, also where the directories are. -/
theorem FileSystem.outcome_ready {s : FileSystem ι} {id : String} (hready : ∀ d, s.Ready d) (h : s.sessions id = none) :
    s.still.outcome id = .error .missing := by
  have hsession : s.still.session id = .error .notFound := by simp [FileSystem.still, FileSystem.lstat, h]
  rw [Still.outcome]
  rcases (hready .application).validate with happlication | happlication
  · rw [happlication, error_bind]
  rcases (hready .sessions).validate with hsessions | hsessions
  · rw [happlication, hsessions, ok_bind, error_bind]
  rw [happlication, hsessions, ok_bind, ok_bind, Still.inspection, hsession]
  rfl

namespace Alike
variable {s : FileLog ι} {m : MemoryLog ι}

theorem outcome (h : Alike s m) (id : String) : s.store.files.still.outcome id = m.store.showMemory id := by
  have htwin := h.files id
  rw [MemoryStore.showMemory]
  cases hf : m.store.files[id]? with
  | none =>
    rw [hf] at htwin
    rw [FileSystem.outcome_ready h.ready htwin]
    rfl
  | some f =>
    rw [hf] at htwin
    obtain ⟨hsize, file, owner, hholds, hlocked⟩ := htwin
    obtain ⟨L, hk⟩ := h.kept
    have hstored : s.store.files.sessions id ≠ none := by simp [hholds.place]
    obtain ⟨-, hprivate⟩ := hk.directories hstored
    rw [hholds.outcome hprivate hsize, okOr_some, ok_bind, hlocked]
    cases owner <;> rfl

/-- A session is inspected for a list as it is in memory. -/
theorem inspect (h : Alike s m) (id : String) (budget : ListReadBudget) :
    (s.store.files.still.inspection id).under (.listing budget) =
      ((m.store.inspect id budget).1, .listing (m.store.inspect id budget).2) := by
  have htwin := h.files id
  rw [Still.inspection, MemoryStore.inspect]
  cases hf : m.store.files[id]? with
  | none =>
    rw [hf] at htwin
    have hnone : s.store.files.sessions id = none := htwin
    have hsession : s.store.files.still.session id = .error .notFound := by simp [FileSystem.still, FileSystem.lstat, hnone]
    rw [hsession]
    rfl
  | some f =>
    rw [hf] at htwin
    obtain ⟨bytes, locked⟩ := f
    obtain ⟨hsize, file, owner, hholds, hlocked⟩ := htwin
    obtain rfl : locked = owner.isSome := hlocked
    have hopened : s.store.files.still.opened id = .ok file := by simp [FileSystem.still, hholds.place]
    have hshown : s.store.files.still.shown file id = (project bytes id).mapError mapProjectionError := by
      simp only [Still.shown, FileSystem.still, hholds.inode, sessionInode]
    have hlong : ¬bytes.length > maxSessionBytes := Nat.not_lt.mpr hsize
    have hread := hholds.size hsize
    rw [hholds.session, hopened]
    simp only [hholds.isFile.kind, ne_eq, not_true_eq_false, if_false, Still.inspectionOpened]
    split
    · rename_i e he
      cases owner with
      | none => cases he.symm.trans hread
      | some i =>
        cases he.symm.trans hread
        rfl
    · rename_i size hok
      cases owner with
      | none =>
        cases hok.symm.trans hread
        simp only [Option.isSome_none, Bool.false_eq_true, if_false, hlong, Inspection.under, Inspection.charged, hshown]
        cases budget.charge bytes.length with
        | error e => rfl
        | ok budget =>
          cases project bytes id <;> rfl
      | some i => cases hok.symm.trans hread

theorem mem_keys (h : Alike s m) {keys : List String} (hkeys : keys.Perm m.store.files.keys) {id : String} :
    id ∈ keys ↔ s.store.files.sessions id ≠ none := by
  rw [hkeys.mem_iff, Std.HashMap.mem_keys, Std.HashMap.mem_iff_contains, h.stored, Option.isSome_iff_ne_none]

/-- The keys of the map name the files in the directory. -/
theorem names (h : Alike s m) {keys : List String} (hkeys : keys.Perm m.store.files.keys) :
    s.store.files.Names (keys.map fileName) where
  nodup := by
    have hnodup : keys.Nodup := hkeys.nodup_iff.mpr Std.HashMap.nodup_keys
    exact hnodup.map fileName_injective
  mem name := by
    rw [List.mem_map]
    refine exists_congr fun id => ?_
    rw [h.mem_keys hkeys, eq_comm (a := fileName id)]

/-- Where a directory is missing there is nothing to list. -/
theorem listMemory_missing (h : Alike s m) {d : Directory} (hd : s.store.files.directories d = none) {keys : List String}
    (hkeys : keys.Perm m.store.files.keys) (limits : ListLimits) : m.store.listMemory keys limits = .ok [] := by
  obtain ⟨L, hk⟩ := h.kept
  have hnil : keys = [] := by
    refine List.eq_nil_iff_forall_not_mem.mpr fun id hid => ?_
    obtain ⟨metadata, hm, -⟩ := (hk.directories ((h.mem_keys hkeys).mp hid)).2 d
    rw [hd] at hm
    cases hm
  rw [hnil, MemoryStore.listMemory, List.map_nil]
  simp [collectCandidateIds, MemoryStore.summarize]

variable [DecidableEq ι]

theorem showSession_alike (h : Alike s m) (hi : s.store.writers i = none) (id : String) :
    Alone Exec i (fun t x => t = s.store.files ∧ x = m.store.showSession id) s.store.files (showSession id).run := by
  obtain ⟨L, hk⟩ := h.kept
  rw [MemoryStore.showSession]
  cases hid : validId id with
  | false =>
    have hvalid : (!validId id) = true := by rw [hid]; rfl
    rw [showSession, if_pos hvalid]
    exact alone_exit.mpr ⟨rfl, rfl⟩
  | true =>
    refine (showSession_alone hid fun file hfile => hk.unlocked hi hfile).mono fun t x hx => ⟨hx.1, ?_⟩
    rw [hx.2, h.outcome]
    rfl

theorem summarizeCandidates_alike (h : Alike s m) (hi : s.store.writers i = none) (ids : List String)
    (budget : ListReadBudget) :
    Alone Exec i (fun t x => t = s.store.files ∧ x = m.store.summarize ids budget) s.store.files
      (summarizeCandidates ids budget).run := by
  obtain ⟨L, hk⟩ := h.kept
  induction ids generalizing budget with
  | nil => exact alone_pure.mpr ⟨rfl, rfl⟩
  | cons id ids ih =>
    refine alone_lift_bind (inspectFile_alone (fun file hfile => hk.unlocked hi hfile) _) fun t x hx => ?_
    obtain ⟨rfl, rfl⟩ := hx
    rw [h.inspect, MemoryStore.summarize]
    cases hinspect : m.store.inspect id budget with
    | mk result budget' =>
    have hrest : ∀ front : List SessionSummary, Alone Exec i (fun t x => t = s.store.files ∧
        x = do return front ++ (← m.store.summarize ids budget')) s.store.files
        (do return front ++ (← summarizeCandidates ids budget') : FsCall ListError (List SessionSummary)).run := by
      intro front
      refine alone_bind (ih budget') (fun t e hx => ⟨hx.1, ?_⟩) fun t summaries hx => alone_pure.mpr ⟨hx.1, ?_⟩
      · rw [← hx.2]
        rfl
      · rw [← hx.2]
        rfl
    rcases result with (e | _) | shown
    · exact hrest (listedError id e)
    · exact alone_exit.mpr ⟨rfl, rfl⟩
    · exact hrest [shown.intoSummary]

theorem listDirectoryExists_ready {files : FileSystem ι} {d : Directory} (h : files.Ready d) :
    Alone Exec i (fun t x => t = files ∧ (x = .ok false ∧ files.directories d = none ∨ x = .ok true ∧ files.Private d)) files
      (listDirectoryExists d).run := by
  refine alone_lift_bind (validatePrivateDirectory_alone d) fun t x hx => ?_
  obtain ⟨rfl, rfl⟩ := hx
  rcases h with hnone | hprivate
  · have hdirectory : t.still.directory d = .error .notFound := by simp [FileSystem.still, hnone]
    rw [Still.validate, hdirectory]
    exact ⟨rfl, .inl ⟨rfl, hnone⟩⟩
  · rw [hprivate.validate]
    exact ⟨rfl, .inr ⟨rfl, hprivate⟩⟩

theorem listFile_alike (h : Alike s m) (hi : s.store.writers i = none) {keys : List String}
    (hkeys : keys.Perm m.store.files.keys) (limits : ListLimits) :
    Alone ExecListed i (fun t x => t = s.store.files ∧ x = m.store.listMemory keys limits) s.store.files
      (listFile limits).run := by
  have hfinite := h.finite
  refine alone_bind (listed_of_alone hfinite (listDirectoryExists_ready (h.ready .application))) (fun t e hx => ?_)
    fun t b hx => ?_
  · obtain ⟨-, ⟨he, -⟩ | ⟨he, -⟩⟩ := hx <;> cases he
  obtain ⟨rfl, ⟨hb, hnone⟩ | ⟨hb, -⟩⟩ := hx <;> cases hb
  · exact alone_pure.mpr ⟨rfl, (h.listMemory_missing hnone hkeys limits).symm⟩
  refine alone_bind (listed_of_alone hfinite (listDirectoryExists_ready (h.ready .sessions))) (fun t e hx => ?_)
    fun t b hx => ?_
  · obtain ⟨-, ⟨he, -⟩ | ⟨he, -⟩⟩ := hx <;> cases he
  obtain ⟨rfl, ⟨hb, hnone⟩ | ⟨hb, hprivate⟩⟩ := hx <;> cases hb
  · exact alone_pure.mpr ⟨rfl, (h.listMemory_missing hnone hkeys limits).symm⟩
  obtain ⟨metadata, hm, -⟩ := hprivate
  refine alone_lift_bind (readDir_listed hfinite hm) fun t x hx => ?_
  obtain ⟨rfl, names, rfl, hnames⟩ := hx
  have hcandidates : collectCandidateIds (names.map .ok) limits =
      collectCandidateIds (keys.map fun id => .ok (fileName id)) limits := by
    have hkeys : (keys.map fun id => (.ok (fileName id) : Except IoError Bytes)) = (keys.map fileName).map .ok := by
      rw [List.map_map]
      rfl
    rw [hkeys, collectCandidateIds_perm ((h.names ‹_›).perm hnames)]
  refine alone_exit_bind.mpr ⟨fun e he => (nomatch he), fun directory hdirectory => ?_⟩
  cases hdirectory
  rw [MemoryStore.listMemory, ← hcandidates]
  refine alone_exit_bind.mpr ⟨fun e he => ⟨rfl, by rw [he]; rfl⟩, fun candidates hids => ?_⟩
  rw [hids, ok_bind]
  refine alone_bind (listed_of_alone hfinite (h.summarizeCandidates_alike hi candidates _)) (fun t e hx => ⟨hx.1, ?_⟩)
    fun t summaries hx => alone_pure.mpr ⟨hx.1, ?_⟩
  · rw [← hx.2]
    rfl
  · rw [← hx.2]
    rfl

end Alike

end

/-! ## Every call -/

section
variable {ι : Type} [DecidableEq ι] {i : ι} {s s' : FileLog ι} {m m' : MemoryLog ι} {call : Invocation} {x y : Reply}

theorem FileLog.after_same (hi : s.store.writers i = none) :
    ({ s with store := s.store.after i s.store.files none } : FileLog ι) = s := by
  obtain ⟨⟨files, writers⟩, sources⟩ := s
  have hwriters : Function.update writers i none = writers := Function.update_eq_self_iff.mpr hi.symm
  simp only [Store.after, hwriters]

/-- **Both logs reply alike**, and are alike again. -/
theorem Alike.step (h : Alike s m) (hfits : Fits i m call) (hs : FileStep i s call x s') (hm : MemoryStep i m call y m') :
    x = y ∧ Alike s' m' := by
  cases hs with
  | start prompt hi hr =>
    cases hm with
    | start _ _ hstart =>
      obtain ⟨rfl, halike⟩ := h.step_start hi hr hstart
      exact ⟨rfl, halike⟩
  | append outcome hw hr =>
    cases hm with
    | append _ hwriter hfinish =>
      obtain ⟨rfl, halike⟩ := h.step_append hfits hw hr hwriter hfinish
      exact ⟨rfl, halike⟩
  | rollback hw hr =>
    cases hm with
    | rollback hwriter hrollback =>
      obtain ⟨rfl, halike⟩ := h.step_rollback hw hr hwriter hrollback
      exact ⟨rfl, halike⟩
  | drop hw hr =>
    cases hm with
    | drop hwriter => exact ⟨rfl, h.step_drop hw hr hwriter⟩
  | inspect id hi hr =>
    cases hm with
    | inspect =>
      obtain ⟨rfl, rfl⟩ := (h.showSession_alike hi id).returns (returns_of_listed hr)
      rw [FileLog.after_same hi]
      exact ⟨rfl, h⟩
  | list limits hi hr =>
    cases hm with
    | list _ _ hkeys =>
      obtain ⟨rfl, rfl⟩ := (h.listFile_alike hi hkeys limits).returns hr
      rw [FileLog.after_same hi]
      exact ⟨rfl, h⟩

/-- **So do they over a whole run**, whose entries fit. -/
theorem Both.alike {s₀ : FileLog ι} {m₀ : MemoryLog ι} {h : List (Exchange ι)} (hrun : Both Fits s₀ m₀ h s m)
    (h₀ : Alike s₀ m₀) : Alike s m ∧ ∀ e ∈ h, e.file = e.memory := by
  induction hrun with
  | nil => exact ⟨h₀, by simp⟩
  | snoc _ hfits hs hm ih =>
    obtain ⟨halike, hall⟩ := ih
    obtain ⟨hxy, halike'⟩ := halike.step hfits hs hm
    refine ⟨halike', fun e he => ?_⟩
    rcases List.mem_append.mp he with he | he
    · exact hall e he
    · rw [List.mem_singleton.mp he]
      exact hxy

/-- The call needs a writer; any other needs that there is none. -/
def Invocation.writes : Invocation → Bool
  | .append _ | .rollback | .drop => true
  | .start _ | .inspect _ | .list _ => false

/-- Both logs answer every call that a party can make. -/
theorem Alike.progress (h : Alike s m) (i : ι) (call : Invocation) (hi : (s.store.writers i).isSome = call.writes) :
    (∃ x s', FileStep i s call x s') ∧ ∃ y m', MemoryStep i m call y m' := by
  have hwriters := h.writers i
  cases hw : s.store.writers i with
  | none =>
    rw [hw] at hi hwriters
    cases call with
    | append | rollback | drop => cases hi
    | start prompt =>
      obtain ⟨_, _, hr⟩ := (listed_of_alone h.finite (startFileDrawn_alone h.ready h.stored prompt s.sources)).exists_returns
      exact ⟨⟨_, _, .start prompt hw hr⟩, _, _, .start prompt hwriters rfl⟩
    | inspect id =>
      obtain ⟨_, _, hr⟩ := (listed_of_alone h.finite (h.showSession_alike hw id)).exists_returns
      exact ⟨⟨_, _, .inspect id hw hr⟩, _, _, .inspect id hwriters⟩
    | list limits =>
      obtain ⟨_, _, hr⟩ := (h.listFile_alike hw (List.Perm.refl _) limits).exists_returns
      exact ⟨⟨_, _, .list limits hw hr⟩, _, _, .list limits hwriters (List.Perm.refl _)⟩
  | some w =>
    rw [hw] at hi hwriters
    obtain ⟨bytes, -, -, hholds⟩ := h.writing hw
    cases call with
    | start | inspect | list => cases hi
    | append outcome =>
      obtain ⟨_, _, hr⟩ := (listed_of_alone h.finite (appendDrawn_alone hholds outcome s.sources)).exists_returns
      exact ⟨⟨_, _, .append outcome hw hr⟩, _, _, .append outcome hwriters rfl⟩
    | rollback =>
      obtain ⟨_, _, hr⟩ := (listed_of_alone h.finite (rollback_alone hholds)).exists_returns
      exact ⟨⟨_, _, .rollback hw hr⟩, _, _, .rollback hwriters rfl⟩
    | drop =>
      have hclose : Alone Exec i (fun _ _ => True) s.store.files (request (.close w.file)) :=
        (alone_ask_of_answers (Exec.answers_sure (close_sure hholds))).mpr trivial
      obtain ⟨_, _, hr⟩ := (listed_of_alone h.finite hclose).exists_returns
      exact ⟨⟨_, _, .drop hw hr⟩, _, _, .drop hwriters⟩

/-- What a session is projected to is not that it is busy. -/
theorem project_ne_busy (bytes : Bytes) (id : String) : (project bytes id).mapError mapProjectionError ≠ .error .busy :=
  mapError_ne fun e => by cases e <;> simp [mapProjectionError]

/-- The session is busy in memory, whoever asks and whenever. In the files it
is not. -/
structure LeftBusy (s : FileLog ι) (m : MemoryLog ι) (id : String) : Prop where
  memory : m.store.showSession id = .error .busy
  file : ∀ i, s.store.writers i = none → m.writers i = none ∧ (∃ x s', FileStep i s (.inspect id) x s') ∧
    ∀ x s', FileStep i s (.inspect id) x s' → x ≠ .shown (.error .busy)

/-- **An entry that does not fit parts the logs**: both refuse it, but in
memory alone its session is busy from then on. -/
theorem Alike.parts (h : Alike s m) (hno : ¬Fits i m call) (hs : FileStep i s call x s') (hm : MemoryStep i m call y m') :
    x = y ∧ ∃ writer, m.writers i = some writer ∧ LeftBusy s' m' writer.sessionId := by
  cases call with
  | start | rollback | drop | inspect | list => exact absurd trivial hno
  | append outcome =>
  cases hs with
  | @append w files x sources _ hw hr =>
  cases hm with
  | @append writer y store _ hwriter hfinish =>
  obtain rfl := h.writer_eq hw hwriter
  obtain ⟨bytes, hfile, hsize, hholds⟩ := h.writing hw
  have hr := returns_of_listed hr
  obtain ⟨L, hk⟩ := h.kept
  obtain ⟨L', hgoes⟩ := hk.step_append hw (FileWriter.appendDrawn_fst w outcome s.sources ▸ hr.bind_ret)
  obtain ⟨hx, rfl⟩ := (appendDrawn_alone hholds outcome s.sources).returns hr
  obtain ⟨rfl, rfl⟩ := Prod.mk.inj hx
  rw [fits_append hwriter hfile] at hno
  simp only [not_forall, Nat.not_le] at hno
  obtain ⟨r, line, hrecord, hline, hlong⟩ := hno
  rw [hrecord, MemoryStore.finish_exceeds hfile hline hlong] at hfinish
  obtain ⟨rfl, rfl⟩ := Prod.mk.inj hfinish
  -- The file refuses it as well, and is unlocked as its writer is gone.
  have hrefused : (w.writer.drawOutcome outcome s.sources).1 >>= SessionWriter.appendTerminal bytes =
      .error .storeUnavailable := by
    rw [← h.sources, hrecord, ok_bind, SessionWriter.appendTerminal, hline, okOr_some, ok_bind, decide_eq_true hlong]
    rfl
  rw [hrefused] at hgoes ⊢
  obtain ⟨hid, hprivate⟩ := hk.writer_known hw
  refine ⟨rfl, w.writer, hwriter, ?_, fun j hj => ?_⟩
  · simp [MemoryStore.showSession, MemoryStore.showMemory, MemoryLog.after, hid, hfile, okOr, rejectIf]
  have hshow := showSession_alone (i := j) hid fun file hfile => hgoes.kept.unlocked hj hfile
  refine ⟨?_, ?_, fun x' s'' hs' => ?_⟩
  · by_cases hji : j = i
    · simp [MemoryLog.after, hji]
    · have hnone : s.store.writers j = none := (Function.update_of_ne hji ..).symm.trans hj
      simp [MemoryLog.after, hji, h.writers j, hnone]
  · have hfinite : (s.store.files.setInode w.file fun _ => sessionInode bytes none).Finite := h.finite
    obtain ⟨_, _, hr'⟩ := (listed_of_alone hfinite hshow).exists_returns
    exact ⟨_, _, .inspect _ hj hr'⟩
  · cases hs' with
    | inspect _ _ hr' =>
    obtain ⟨-, rfl⟩ := hshow.returns (returns_of_listed hr')
    have hprivate' : ∀ d, (s.store.files.setInode w.file fun _ => sessionInode bytes none).Private d := hprivate
    intro heq
    exact project_ne_busy bytes w.writer.sessionId
      (((hholds.set _ none).outcome hprivate' hsize).symm.trans (Reply.shown.inj heq))

end

/-! ## A session in both logs -/

section
variable (s : Session) (t : s.Terminal)

/-- An empty log, whose sources have what the session and its end need. -/
def sessionLog : FileLog Bool where
  store := sampleEmpty
  sources := s.sources [t.entryId] [t.timestamp]

/-- One party starts the session, ends it and asks for it. -/
def sessionCalls : List (Bool × Invocation) :=
  [(false, .start s.prompt), (false, .append t.outcome), (false, .inspect s.sessionId)]

theorem sessionLog_empty : (sessionLog s t).Empty where
  store := ⟨fun _ => rfl, fun _ => rfl⟩
  ready _ := .inl rfl

/-- The log in memory once the session is started. -/
def startedLog : MemoryLog Bool :=
  (MemoryLog.empty (sessionLog s t).sources).after false
    { files := MemoryStore.empty.files.insert s.sessionId { bytes := s.bytes none, locked := true } }
    (some (s.writer [t.entryId] [t.timestamp]))
    { ids := [t.entryId], times := [t.timestamp], workingDirectory := s.workingDirectory, harnessVersion := s.harnessVersion }

variable {s t}

theorem startedLog_step (hfit : s.LinesFit none) (hsize : (s.bytes none).length ≤ maxSessionBytes) :
    MemoryStep false (.empty (sessionLog s t).sources) (.start s.prompt) (.started (.ok (s.writer [t.entryId] [t.timestamp])))
      (startedLog s t) :=
  .start _ rfl (MemoryStore.startMemory_sources hfit hsize Std.HashMap.contains_empty _ _)

theorem startedLog_file : (startedLog s t).store.files[s.sessionId]? = some { bytes := s.bytes none, locked := true } :=
  Std.HashMap.getElem?_insert_self

/-- The end fits exactly if the file with it does, where its line may be written. -/
theorem fits_startedLog (hline : t.record.toVec.length ≤ maxRecordBytes) :
    Fits false (startedLog s t) (.append t.outcome) ↔ (s.bytes (some t)).length ≤ maxSessionBytes := by
  have hrecord : ((s.writer [t.entryId] [t.timestamp]).drawOutcome t.outcome (startedLog s t).sources).1 = .ok t.record :=
    t.drawn rfl rfl
  have hserialized := serializeLine_eq_some.mpr ⟨hline, rfl⟩
  rw [fits_append (i := false) (m := startedLog s t) rfl startedLog_file, s.bytes_some, List.length_append]
  constructor
  · exact fun hfits => hfits _ _ hrecord hserialized
  · intro hsize record line hr hl
    cases hrecord.symm.trans hr
    cases hserialized.symm.trans hl
    exact hsize

end

/-- The start of a session in both logs, after which its party has a writer. -/
theorem started_alike {s : Session} {t : s.Terminal} (hfit : s.LinesFit none)
    (hsize : (s.bytes none).length ≤ maxSessionBytes) :
    ∃ x s₁, FileStep false (sessionLog s t) (.start s.prompt) x s₁ ∧ Alike s₁ (startedLog s t) ∧
      (s₁.store.writers false).isSome = true := by
  have hempty := sessionLog_empty s t
  obtain ⟨⟨x, s₁, hs⟩, -⟩ := hempty.alike.progress false (.start s.prompt) rfl
  have hfits : Fits false (.empty (sessionLog s t).sources) (.start s.prompt) := trivial
  obtain ⟨-, halike⟩ := hempty.alike.step hfits hs (startedLog_step hfit hsize)
  refine ⟨x, s₁, hs, halike, ?_⟩
  have hsome := congrArg Option.isSome (halike.writers false)
  rwa [Option.isSome_map, eq_comm] at hsome

/-- **The log in memory is the one in files**, from an empty one on, as long as
entries fit: every call is answered in both, and alike. The first entry that
does not fit leaves a session busy in memory. -/
theorem logs_alike {ι : Type} [DecidableEq ι] {s₀ s : FileLog ι} {m : MemoryLog ι} {h : List (Exchange ι)} (hempty : s₀.Empty)
    (hrun : Both Fits s₀ (.empty s₀.sources) h s m) :
    (∀ e ∈ h, e.file = e.memory) ∧
      (∀ i call, (s.store.writers i).isSome = call.writes →
        (∃ x s', FileStep i s call x s') ∧ ∃ y m', MemoryStep i m call y m') ∧
      ∀ i call x s' y m', ¬Fits i m call → FileStep i s call x s' → MemoryStep i m call y m' →
        x = y ∧ ∃ writer, m.writers i = some writer ∧ LeftBusy s' m' writer.sessionId := by
  obtain ⟨halike, hreplies⟩ := hrun.alike hempty.alike
  exact ⟨hreplies, halike.progress, fun _ _ _ _ _ _ => halike.parts⟩

/-- The short session fits. -/
theorem logs_alike_sample : ∃ (h : List (Exchange Bool)) (s : FileLog Bool) (m : MemoryLog Bool),
    Both Fits (sessionLog sampleSession sampleTerminal) (.empty (sessionLog sampleSession sampleTerminal).sources) h s m ∧
      h.map (fun e => (e.party, e.call)) = sessionCalls sampleSession sampleTerminal ∧ ∀ e ∈ h, e.file = e.memory := by
  have hfit : sampleSession.LinesFit none := (sampleSession.initialRecords_sources.mp sample_initial).1
  have hsize : (sampleSession.bytes none).length ≤ maxSessionBytes := by decide +kernel
  have hfits : Fits false (startedLog sampleSession sampleTerminal) (.append sampleTerminal.outcome) :=
    (fits_startedLog (by decide +kernel)).mpr (by decide +kernel)
  obtain ⟨x₁, s₁, hs₁, halike₁, hwriter⟩ := started_alike (t := sampleTerminal) hfit hsize
  obtain ⟨⟨x₂, s₂, hs₂⟩, y₂, m₂, hm₂⟩ := halike₁.progress false (.append sampleTerminal.outcome) hwriter
  obtain ⟨-, halike₂⟩ := halike₁.step hfits hs₂ hm₂
  have hgone : (s₂.store.writers false).isSome = false := by
    cases hs₂
    simp [Store.after]
  obtain ⟨⟨x₃, s₃, hs₃⟩, y₃, m₃, hm₃⟩ := halike₂.progress false (.inspect sampleSession.sessionId) hgone
  have hnil : Both Fits (sessionLog sampleSession sampleTerminal) (.empty (sessionLog sampleSession sampleTerminal).sources)
    [] _ _ := .nil
  have hstart : Fits false (.empty (sessionLog sampleSession sampleTerminal).sources) (.start sampleSession.prompt) := trivial
  have hinspect : Fits false m₂ (.inspect sampleSession.sessionId) := trivial
  have hrun := ((hnil.snoc hstart hs₁ (startedLog_step hfit hsize)).snoc hfits hs₂ hm₂).snoc hinspect hs₃ hm₃
  exact ⟨_, s₃, m₃, hrun, rfl, (logs_alike (sessionLog_empty _ _) hrun).1⟩

/-! ### A long session -/

/-- The session with a text both for its prompt and for its answer. -/
def textSession (text : String) : Session := { sampleSession with prompt := text }

def textTerminal (text : String) : (textSession text).Terminal := { sampleTerminal with outcome := .assistant text }

theorem length_header_textSession (text : String) : (textSession text).headerRecord.toVec.length ≤ 2000 := by
  have h : sampleSession.headerRecord.toVec.length ≤ 2000 := by decide +kernel
  exact h

theorem length_user_textSession (text : String) : ∃ k ≤ 2000,
    (textSession text).userRecord.toVec.length = k + ((utf8 text).flatMap escapeByte).length :=
  have hempty : (textSession "").userRecord.toVec.length ≤ 2000 := by decide +kernel
  ⟨_, hempty, userEntry_length ..⟩

theorem length_textTerminal (text : String) : ∃ k ≤ 2000,
    (textTerminal text).record.toVec.length = k + ((utf8 text).flatMap escapeByte).length :=
  have hempty : (textTerminal "").record.toVec.length ≤ 2000 := by decide +kernel
  ⟨_, hempty, assistantEntry_length ..⟩

/-- 1.7 MB of it are short enough for one entry, and too long for two. -/
theorem textSession_size {text : String} (hn : ((utf8 text).flatMap escapeByte).length = 1700000) :
    (textSession text).LinesFit none ∧ ((textSession text).bytes none).length ≤ maxSessionBytes ∧
      (textTerminal text).record.toVec.length ≤ maxRecordBytes ∧
      maxSessionBytes < ((textSession text).bytes (some (textTerminal text))).length := by
  obtain ⟨u, hu, huser⟩ := length_user_textSession text
  obtain ⟨a, ha, hanswer⟩ := length_textTerminal text
  have hheader := length_header_textSession text
  have hnone := congrArg List.length (textSession text).bytes_none
  have hsome := congrArg List.length ((textSession text).bytes_some (textTerminal text))
  simp only [List.length_append, List.length_cons, List.length_nil] at hnone hsome
  rw [hn] at huser hanswer
  simp only [Session.LinesFit, Session.records, Option.map_none, Option.toList_none, List.forall_mem_cons]
  simp only [maxRecordBytes, maxSessionBytes]
  refine ⟨⟨by omega, by omega, by simp⟩, by omega, by omega, by omega⟩

/-- Its answer is refused, and then its file is shown but not what is in memory. -/
theorem textSession_parts {text : String} (hn : ((utf8 text).flatMap escapeByte).length = 1700000) :
    ∃ (h : List (Exchange Bool)) (s : FileLog Bool) (m : MemoryLog Bool),
      Both (fun _ _ _ => True) (sessionLog (textSession text) (textTerminal text))
        (.empty (sessionLog (textSession text) (textTerminal text)).sources) h s m ∧
      h.map (fun e => (e.party, e.call)) = sessionCalls (textSession text) (textTerminal text) ∧
      ∃ e ∈ h, e.file ≠ e.memory := by
  obtain ⟨hfit, hsize, hline, hlong⟩ := textSession_size hn
  have hno : ¬Fits false (startedLog (textSession text) (textTerminal text)) (.append (.assistant text)) := fun hfits =>
    Nat.not_le.mpr hlong ((fits_startedLog hline).mp hfits)
  obtain ⟨x₁, s₁, hs₁, halike, hwriter⟩ := started_alike (t := textTerminal text) hfit hsize
  obtain ⟨⟨x₂, s₂, hs₂⟩, y₂, m₂, hm₂⟩ := halike.progress false (.append (.assistant text)) hwriter
  obtain ⟨-, writer, hwriter, hbusy⟩ := halike.parts hno hs₂ hm₂
  cases hwriter
  have hgone : s₂.store.writers false = none := by
    cases hs₂
    simp [Store.after]
  obtain ⟨hnone, ⟨x₃, s₃, hs₃⟩, hfile⟩ := hbusy.file false hgone
  have hnil : Both (fun _ _ _ => True) (sessionLog (textSession text) (textTerminal text))
    (.empty (sessionLog (textSession text) (textTerminal text)).sources) [] _ _ := .nil
  have hstarted := hnil.snoc trivial hs₁ (startedLog_step hfit hsize)
  have hrun := (hstarted.snoc trivial hs₂ hm₂).snoc trivial hs₃ (.inspect _ hnone)
  refine ⟨_, s₃, m₂, hrun, rfl, _, List.mem_append_right _ List.mem_cons_self, ?_⟩
  rw [hbusy.memory]
  exact hfile _ _ hs₃

def longText : String := String.ofList (List.replicate 1700000 'a')

/-- Not every entry fits. -/
theorem logs_part : ¬∀ (h : List (Exchange Bool)) (s : FileLog Bool) (m : MemoryLog Bool),
    Both (fun _ _ _ => True) (sessionLog (textSession longText) (textTerminal longText))
      (.empty (sessionLog (textSession longText) (textTerminal longText)).sources) h s m →
    h.map (fun e => (e.party, e.call)) = sessionCalls (textSession longText) (textTerminal longText) →
    ∀ e ∈ h, e.file = e.memory := by
  intro hsame
  obtain ⟨h, s, m, hrun, hcalls, e, he, hne⟩ := textSession_parts (escaped_length_replicate 1700000)
  exact hne (hsame h s m hrun hcalls e he)

end AgentHarness.SessionLog
