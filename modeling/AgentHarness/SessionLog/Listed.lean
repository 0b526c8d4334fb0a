/-
The file system where a directory of sessions is listed as it is: the names
of their files, each once and in any order. As there are only ever finitely
many of them it can be, so that what runs alone in any directory does so in
this one.
-/
import Mathlib.Data.List.Dedup
import AgentHarness.SessionLog.Lifecycle

namespace AgentHarness.SessionLog

open Text Except Interact

section
variable {ι : Type}

/-- The names of the files of the sessions, each once. -/
structure FileSystem.Names (s : FileSystem ι) (names : List Bytes) : Prop where
  nodup : names.Nodup
  mem : ∀ name, name ∈ names ↔ ∃ id, s.sessions id ≠ none ∧ name = fileName id

/-- The answer, if it is a list of the sessions, is what there is. -/
def FileSystem.Lists (s : FileSystem ι) : (r : FsRequest) → FsAnswer r → Prop
  | .readDir .sessions, .ok entries => ∃ names, entries = names.map .ok ∧ s.Names names
  | _, _ => True

/-- `Exec`, where the sessions are listed as they are. -/
def ExecListed [DecidableEq ι] (i : ι) (s : FileSystem ι) (r : FsRequest) (a : FsAnswer r) (s' : FileSystem ι) : Prop :=
  Exec i s r a s' ∧ s.Lists r a

/-- There are only so many sessions. -/
def FileSystem.Finite (s : FileSystem ι) : Prop := ∃ ids : List String, ∀ id, s.sessions id ≠ none → id ∈ ids

variable {s s' : FileSystem ι}

theorem FileSystem.Finite.exists_names (h : s.Finite) : ∃ names, s.Names names := by
  obtain ⟨ids, hids⟩ := h
  refine ⟨((ids.filter fun id => (s.sessions id).isSome).map fileName).dedup, List.nodup_dedup _, fun name => ?_⟩
  simp only [List.mem_dedup, List.mem_map, List.mem_filter, ← Option.ne_none_iff_isSome]
  constructor
  · intro h
    obtain ⟨id, ⟨-, hid⟩, rfl⟩ := h
    exact ⟨id, hid, rfl⟩
  · intro h
    obtain ⟨id, hid, rfl⟩ := h
    exact ⟨id, ⟨hids id hid, hid⟩, rfl⟩

/-- Any two lists of the sessions have the same names. -/
theorem FileSystem.Names.perm {names names' : List Bytes} (h : s.Names names) (h' : s.Names names') :
    names'.Perm names :=
  (List.perm_ext_iff_of_nodup h'.nodup h.nodup).mpr fun name => (h'.mem name).trans (h.mem name).symm

theorem FileSystem.lists_of_ne {r : FsRequest} (h : r ≠ .readDir .sessions) (s : FileSystem ι) (a : FsAnswer r) :
    s.Lists r a := by
  unfold Lists
  split
  · exact absurd rfl h
  · trivial

variable [DecidableEq ι] {i : ι} {α : Type}

theorem FileSystem.Finite.exec (h : s.Finite) {r : FsRequest} {a : FsAnswer r} (hx : Exec i s r a s') : s'.Finite := by
  obtain ⟨ids, hids⟩ := h
  cases hx with
  | createNew id mode m _ _ =>
    refine ⟨id :: ids, fun id' hid' => ?_⟩
    by_cases hid : id' = id
    · exact hid ▸ List.mem_cons_self
    · have hsame : (s.create id mode).sessions id' = s.sessions id' := Function.update_of_ne hid ..
      exact List.mem_cons_of_mem _ (hids id' (hsame ▸ hid'))
  | removeFile id file _ =>
    refine ⟨ids, fun id' hid' => hids id' ?_⟩
    by_cases hid : id' = id
    · subst hid
      exact absurd (Function.update_self ..) hid'
    · have hsame : (s.setSession id none).sessions id' = s.sessions id' := Function.update_of_ne hid ..
      exact hsame ▸ hid'
  | _ => exact ⟨ids, hids⟩

/-- What is answered at all is answered where the sessions are listed as they are. -/
theorem FileSystem.Finite.answered (h : s.Finite) {r : FsRequest} (hx : ∃ a s', Exec i s r a s') :
    ∃ a s', ExecListed i s r a s' := by
  obtain ⟨a, s', hx⟩ := hx
  by_cases hr : r = .readDir .sessions
  · subst hr
    cases hx with
    | readDir _ m names hm =>
      obtain ⟨names, hnames⟩ := h.exists_names
      exact ⟨_, _, .readDir _ _ m names hm, names, rfl, hnames⟩
    | readDirAbsent _ hnone => exact ⟨_, _, .readDirAbsent _ _ hnone, trivial⟩
  · exact ⟨a, s', hx, s.lists_of_ne hr a⟩

theorem listed_of_alone {p : FsProgram α} {Q : FileSystem ι → α → Prop} (h : s.Finite) (hp : Alone Exec i Q s p) :
    Alone ExecListed i Q s p := by
  induction p generalizing s with
  | ret a => exact hp
  | ask r k ih => exact ⟨h.answered hp.1, fun a s' hx => ih a (h.exec hx.1) (hp.2 a s' hx.1)⟩

theorem returns_of_listed {p : FsProgram α} {x : α} (h : Returns ExecListed i s p s' x) : Returns Exec i s p s' x :=
  h.mono fun _ _ _ _ hx => hx.1

/-- The sessions are read as they are listed. -/
theorem readDir_listed {m : Metadata} (h : s.Finite) (hm : s.directories .sessions = some m) :
    Alone ExecListed i (fun t x => t = s ∧ ∃ names, x = .ok (names.map .ok) ∧ s.Names names) s
      (request (.readDir .sessions)) := by
  refine ⟨h.answered ⟨_, _, .readDir _ _ m [] hm⟩, fun a t hx => ?_⟩
  obtain ⟨hx, hlists⟩ := hx
  cases hx with
  | readDir _ _ names _ =>
    obtain ⟨names', hnames', hs⟩ := hlists
    exact ⟨rfl, names', congrArg Except.ok hnames', hs⟩
  | readDirAbsent _ hnone =>
    rw [hm] at hnone
    cases hnone

end

end AgentHarness.SessionLog
