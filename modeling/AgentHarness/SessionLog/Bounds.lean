/-
How much a list takes on: the entries of the directory, the sessions among
them and the bytes of the files it reads. A list is too large exactly when
one of the three is exceeded, and otherwise leaves no session out; what it
reads never exceeds the last, whatever happens meanwhile.

A file counts as long as it would be read, whether or not the read succeeds.
-/
import Mathlib.Algebra.Order.BigOperators.Group.List
import Mathlib.Algebra.Order.Group.Nat
import AgentHarness.Lib.Word
import AgentHarness.SessionLog.Reading
import AgentHarness.SessionLog.Still

namespace AgentHarness.SessionLog

open Text Except Interact

/-! ## Machine words -/

def ListReadBudget.chargeChecked (budget : ListReadBudget) (size : Nat) : Except FileInspectionError ListReadBudget := do
  let next ← okOr (Word.checkedAdd UInt64.size budget.used size) .inventoryTooLarge
  rejectIf (next > budget.limit) .inventoryTooLarge
  return { budget with used := next }

def collectEntryChecked (words : Nat) (limits : ListLimits) (acc : Nat × List String) (entry : Except IoError Bytes) :
    Except ListError (Nat × List String) := do
  let (directoryEntries, candidates) := acc
  let fileName ← entry.mapError fun _ => .storeUnavailable
  let directoryEntries ← okOr (Word.checkedAdd words directoryEntries 1) .inventoryTooLarge
  rejectIf (directoryEntries > limits.directoryEntries) .inventoryTooLarge
  match canonicalSessionId fileName with
  | none => return (directoryEntries, candidates)
  | some sessionId =>
    rejectIf ((Word.checkedAdd words candidates.length 1).all fun count => count > limits.candidates) .inventoryTooLarge
    return (directoryEntries, candidates ++ [sessionId])

/-- An addition that is checked against a limit need not be checked against the words. -/
theorem ListReadBudget.chargeChecked_eq {budget : ListReadBudget} (h : budget.limit < UInt64.size) :
    budget.chargeChecked = budget.charge := by
  funext size
  rw [chargeChecked, charge, Word.checkedAdd_within h]
  rfl

theorem collectEntryChecked_eq {words : Nat} {limits : ListLimits} (hentries : limits.directoryEntries < words)
    (hcandidates : limits.candidates < words) : collectEntryChecked words limits = collectEntry limits := by
  funext acc entry
  obtain ⟨n, ids⟩ := acc
  cases entry with
  | error e => rfl
  | ok name =>
    simp only [collectEntryChecked, collectEntry, Word.checkedAdd_within hentries, Word.checkedAdd_all hcandidates,
      Except.mapError, ok_bind]
    by_cases hlarge : n + 1 > limits.directoryEntries
    · rw [if_pos hlarge, decide_eq_true hlarge]
      rfl
    · rw [if_neg hlarge, decide_eq_false hlarge]
      rfl

/-! ## What the reads take -/

/-- How much a request may read. -/
def FsRequest.asked : FsRequest → Nat
  | .read _ limit => limit
  | _ => 0

/-- A request that reads no session file. -/
def Unread : FsRequest → Prop
  | .read _ _ => False
  | _ => True

theorem Unread.asked {r : FsRequest} (h : Unread r) : r.asked = 0 := by
  cases r <;> first | rfl | cases h

theorem validatePrivateDirectory_unread (d : Directory) : (validatePrivateDirectory d).run.Asks Unread fun _ => True :=
  asks_ask_bind trivial fun _ => asks_exit_bind fun _ => asks_exit_bind fun _ => by
    cases rejectIf _ _ <;> trivial

theorem listDirectoryExists_unread (d : Directory) : (listDirectoryExists d).run.Asks Unread fun _ => True := by
  refine asks_lift_bind (validatePrivateDirectory_unread d) fun x => ?_
  cases x with
  | ok _ => trivial
  | error e => cases e <;> trivial

/-- How much was read. A read that fails may have got to its end. -/
def bytesRead : Event FsAnswer → Nat
  | ⟨.read _ _, .ok bytes⟩ => bytes.length
  | ⟨.read _ limit, .error _⟩ => limit
  | _ => 0

def asked (h : FsHistory) : Nat := (h.map fun e => e.1.asked).sum

@[simp] theorem asked_snoc (h : FsHistory) (e : Event FsAnswer) : asked (h ++ [e]) = asked h + e.1.asked := by
  simp [asked]

/-- No request goes beyond the limit. -/
abbrev readsWithin (limit : Nat) : Contract FsRequest FsAnswer := .free fun h r => asked h + r.asked ≤ limit

section
variable {limit : Nat} {h : FsHistory}

/-- What does not read takes nothing. -/
theorem unread_meets {α : Type} {p : FsProgram α} (hp : p.Asks Unread fun _ => True) {used : Nat}
    (hused : asked h ≤ used) (hlimit : used ≤ limit) : p.Meets (readsWithin limit) (fun h _ => asked h ≤ used) h := by
  refine (hp.meets (J := fun h => asked h ≤ used) hused ?_ ?_).mono fun h _ hh => hh.1
  · intro h r hh hr
    show asked h + r.asked ≤ limit
    rw [hr.asked]
    exact le_trans hh hlimit
  · intro h r a hh hr _
    rw [asked_snoc, hr.asked]
    exact hh

/-- The budget covers what has been read, and is no more than the limit. -/
def Covers (limit : Nat) (h : FsHistory) (policy : ReadPolicy) : Prop :=
  ∃ budget, policy = .listing budget ∧ asked h ≤ budget.used ∧ budget.used ≤ limit ∧ budget.limit = limit

section
variable {policy : ReadPolicy} {r : FsRequest}

theorem Covers.asked_le (hcovers : Covers limit h policy) (hr : Unread r) : asked h + r.asked ≤ limit := by
  obtain ⟨budget, -, hused, hlimit, -⟩ := hcovers
  rw [hr.asked]
  exact le_trans hused hlimit

theorem Covers.snoc (hcovers : Covers limit h policy) (a : FsAnswer r) (hr : Unread r) :
    Covers limit (h ++ [⟨r, a⟩]) policy := by
  obtain ⟨budget, rfl, hused, hlimit, hbudget⟩ := hcovers
  refine ⟨budget, rfl, ?_, hlimit, hbudget⟩
  rw [asked_snoc, hr.asked]
  exact hused

end

theorem readListed_within {file size used : Nat} {id : String} (hused : asked h + size ≤ used) (hlimit : used ≤ limit) :
    (readListed file id size).run.Meets (readsWithin limit) (fun h _ => asked h ≤ used) h := by
  refine meets_ask_bind.mpr ⟨le_trans hused hlimit, fun bytes _ => ?_⟩
  have hread : ∀ h : FsHistory, asked h ≤ used → ∀ bytes : Bytes, (do
      let m ← ask (.metadata file)
      exit (rejectIf (bytes.length != size || !unchangedSize m size) .corrupt)
      let same ← ExceptT.lift (identityMatches file id)
      exit (rejectIf (!same) .corrupt)
      return bytes : FsCall ShowError Bytes).run.Meets (readsWithin limit) (fun h _ => asked h ≤ used) h := by
    intro h hh bytes
    refine unread_meets ?_ hh hlimit
    refine asks_ask_bind trivial fun m => asks_exit_bind fun _ => ?_
    exact asks_lift_bind (identityMatches_asks trivial trivial) fun _ => asks_exit_bind fun _ => trivial
  have hnow : asked (h ++ [⟨.read file size, bytes⟩]) ≤ used := by
    rw [asked_snoc]
    exact hused
  exact meets_exit_bind.mpr ⟨fun _ _ => hnow, fun bytes _ => hread _ hnow bytes⟩

theorem inspectOpened_within {file : Nat} {id : String} {policy : ReadPolicy} (hcovers : Covers limit h policy) :
    (inspectOpened file id policy).Meets (readsWithin limit) (fun h x => Covers limit h x.2) h := by
  obtain ⟨budget, rfl, hused, hlimit, hbudget⟩ := hcovers
  refine (unread_meets (lockedSize_asks trivial trivial trivial) hused hlimit).bind fun h x hh => ?_
  cases x with
  | error e => exact ⟨budget, rfl, hh, hlimit, hbudget⟩
  | ok size =>
    simp only [ListReadBudget.charge]
    by_cases hlarge : budget.used + size > budget.limit
    · simp only [if_pos hlarge]
      exact ⟨budget, rfl, hh, hlimit, hbudget⟩
    · simp only [if_neg hlarge]
      have hfits : budget.used + size ≤ limit := by omega
      have hasked : asked h + size ≤ budget.used + size := by omega
      refine (readListed_within hasked hfits).bind fun h x hh => ?_
      exact ⟨_, rfl, hh, hfits, hbudget⟩

theorem inspectFile_within {id : String} {policy : ReadPolicy} (hcovers : Covers limit h policy) :
    (inspectFile id policy).Meets (readsWithin limit) (fun h x => Covers limit h x.2) h := by
  refine Program.meets_request_bind.mpr ⟨hcovers.asked_le trivial, fun a _ => ?_⟩
  have hnow := hcovers.snoc a trivial
  cases a with
  | error e => exact hnow
  | ok m =>
    by_cases hkind : m.kind ≠ .file
    · simp only [if_pos hkind]
      exact hnow
    · simp only [if_neg hkind]
      refine Program.meets_request_bind.mpr ⟨hnow.asked_le trivial, fun a _ => ?_⟩
      have hopened := hnow.snoc a trivial
      cases a with
      | error e => exact hopened
      | ok file =>
        refine (inspectOpened_within hopened).bind fun h x hx => ?_
        exact Program.meets_request_bind.mpr ⟨hx.asked_le trivial, fun a _ => hx.snoc a trivial⟩

theorem summarizeCandidates_within {ids : List String} {budget : ListReadBudget}
    (hcovers : Covers limit h (.listing budget)) :
    (summarizeCandidates ids budget).run.Meets (readsWithin limit) (fun _ _ => True) h := by
  induction ids generalizing h budget with
  | nil => trivial
  | cons id ids ih =>
    refine meets_lift_bind (inspectFile_within hcovers) fun h x hx => ?_
    obtain ⟨result, policy⟩ := x
    obtain ⟨budget', rfl, hcovers'⟩ := hx
    have hrest : Covers limit h (.listing budget') := ⟨budget', rfl, hcovers'⟩
    cases result with
    | ok shown => exact meets_bind (ih hrest) (fun _ _ _ => trivial) fun _ _ _ => trivial
    | error e =>
      cases e with
      | inventoryTooLarge => trivial
      | shown e => exact meets_bind (ih hrest) (fun _ _ _ => trivial) fun _ _ _ => trivial

theorem listFile_within (limits : ListLimits) :
    (listFile limits).run.Meets (readsWithin limits.readBytes) (fun _ _ => True) [] := by
  have hdirectory : ∀ {h : FsHistory} (d : Directory), asked h ≤ 0 →
      (listDirectoryExists d).run.Meets (readsWithin limits.readBytes) (fun h _ => asked h ≤ 0) h :=
    fun d hh => unread_meets (listDirectoryExists_unread d) hh (Nat.zero_le _)
  refine meets_bind (hdirectory .application (le_refl 0)) (fun _ _ _ => trivial) fun h application hh => ?_
  cases application with
  | false => trivial
  | true =>
    refine meets_bind (hdirectory .sessions hh) (fun _ _ _ => trivial) fun h sessions hh => ?_
    cases sessions with
    | false => trivial
    | true =>
      have hguar : asked h + (FsRequest.readDir .sessions).asked ≤ limits.readBytes := le_trans hh (Nat.zero_le _)
      refine meets_ask_bind.mpr ⟨hguar, fun a _ => ?_⟩
      have hcovers : Covers limits.readBytes (h ++ [⟨.readDir .sessions, a⟩])
          (.listing { used := 0, limit := limits.readBytes }) := by
        refine ⟨_, rfl, ?_, Nat.zero_le _, rfl⟩
        rw [asked_snoc]
        exact hh
      refine meets_exit_bind.mpr ⟨fun _ _ => trivial, fun entries _ => ?_⟩
      refine meets_exit_bind.mpr ⟨fun _ _ => trivial, fun ids _ => ?_⟩
      exact meets_bind (summarizeCandidates_within hcovers) (fun _ _ _ => trivial) fun _ _ _ => trivial

/-- **A list reads no more than its limit**, whatever is answered, as long as
no read gets more than it asks for. -/
theorem listFile_bytesRead {limits : ListLimits} {tr : FsHistory} {q} (h : (listFile limits).run.Follows tr q)
    (hreads : ∀ e ∈ tr, bytesRead e ≤ e.1.asked) : (tr.map bytesRead).sum ≤ limits.readBytes := by
  have hasked : asked tr ≤ limits.readBytes := by
    rcases List.eq_nil_or_concat tr with rfl | ⟨pre, e, rfl⟩
    · exact Nat.zero_le _
    · rw [List.concat_eq_append] at h ⊢
      have hguar := (listFile_within limits).guar_free h
      rw [asked_snoc]
      exact hguar
  refine le_trans ?_ hasked
  exact List.sum_le_sum hreads

end

/-! ## What counts -/

namespace Still
variable (st : Still) (readable : Nat → Bool)

/-- How much of a session's file is to be read for a list: all of it when it
opens as a regular file with one name, is private, can be locked and is not
too long, and otherwise nothing. -/
def counted (id : String) : Nat :=
  match st.opened id with
  | .ok file =>
    if st.same file id = true ∧ st.unshared file = true ∧ st.lock file = .ok () ∧
        (st.contents file).length ≤ maxSessionBytes then (st.contents file).length else 0
  | .error _ => 0

/-- The length of the file at a session's path, if it is a regular file with
one name, private, not locked exclusively and not too long. -/
def lengthAt (id : String) : Nat :=
  match st.session id with
  | .ok m =>
    if m.kind = .file ∧ m.nlink = 1 ∧ isPrivate m.mode = true ∧ st.lock m.ino ≠ .error .wouldBlock ∧
        m.len ≤ maxSessionBytes then m.len else 0
  | .error _ => 0

/-- The file at a session's path, if there is one, can be opened and looked
up, and nothing but another's lock keeps it from being locked. -/
def Accessible (id : String) : Prop :=
  ∀ m, st.session id = .ok m → m.kind = .file →
    st.opened id = .ok m.ino ∧ st.fstat m.ino = .ok m ∧ st.lock m.ino ≠ .error .error

/-- As `answer`, with reads that fail. -/
def answerReading : (r : FsRequest) → Option (FsAnswer r)
  | .read file limit => some (if readable file then .ok ((st.contents file).take limit) else .error .other)
  | r => st.answer r

def effectReading : Effect Unit FsAnswer Unit := fun _ _ r a _ => st.answerReading readable r = some a

/-- What inspecting a session comes to when its file may not be readable. -/
def inspectionReading (id : String) : Inspection id :=
  match st.opened id with
  | .error _ => st.inspection id
  | .ok file =>
    if readable file then st.inspection id
    else match st.inspection id with
      | .refused e => .refused e
      | .read size _ _ => .read size (.error .storeUnavailable) fun _ h => by cases h

variable {st readable} {file : Nat} {id : String}

/-! ### Sizes -/

theorem size_ok_iff {size : Nat} : st.size file id = .ok size ↔
    (st.same file id = true ∧ st.unshared file = true ∧ st.lock file = .ok () ∧
      (st.contents file).length ≤ maxSessionBytes) ∧ size = (st.contents file).length := by
  have hlock : ∀ u, (st.lock file).mapError mapLockError = .ok u ↔ st.lock file = .ok u := by
    intro u
    cases st.lock file <;> simp [Except.mapError]
  simp only [Still.size, bind_ok_iff, rejectIf_ok_iff, Bool.not_eq_false', decide_eq_false_iff_not, Nat.not_lt,
    pure_ok_iff, exists_const]
  constructor
  · intro h
    obtain ⟨hsame, hunshared, u, hlocked, hfits, rfl⟩ := h
    exact ⟨⟨hsame, hunshared, (hlock u).mp hlocked, hfits⟩, rfl⟩
  · intro h
    obtain ⟨⟨hsame, hunshared, hlocked, hfits⟩, rfl⟩ := h
    exact ⟨hsame, hunshared, (), (hlock ()).mpr hlocked, hfits, rfl⟩

theorem size_inspectionOpened : (st.inspectionOpened file id).size =
    if st.same file id = true ∧ st.unshared file = true ∧ st.lock file = .ok () ∧
      (st.contents file).length ≤ maxSessionBytes then (st.contents file).length else 0 := by
  unfold inspectionOpened
  cases hsize : st.size file id with
  | ok size =>
    obtain ⟨hcounts, rfl⟩ := size_ok_iff.mp hsize
    exact (if_pos hcounts).symm
  | error e =>
    have hcounts : ¬(st.same file id = true ∧ st.unshared file = true ∧ st.lock file = .ok () ∧
        (st.contents file).length ≤ maxSessionBytes) := fun hcounts => by
      rw [size_ok_iff.mpr ⟨hcounts, rfl⟩] at hsize
      cases hsize
    exact (if_neg hcounts).symm

theorem same_of_session (h : st.same file id = true) : ∃ m, st.session id = .ok m ∧ m.kind = .file := by
  unfold same at h
  split at h
  · rename_i m hm
    simp only [Bool.and_eq_true, beq_iff_eq] at h
    exact ⟨_, hm, h.1.1.1.1⟩
  · cases h

/-- What is no regular file counts for nothing. -/
theorem counted_of_no_file (h : ∀ m, st.session id = .ok m → m.kind ≠ .file) : st.counted id = 0 := by
  unfold counted
  cases st.opened id with
  | error e => rfl
  | ok file =>
    refine if_neg fun hcounts => ?_
    obtain ⟨m, hm, hfile⟩ := same_of_session hcounts.1
    exact h m hm hfile

theorem size_inspection : (st.inspection id).size = st.counted id := by
  unfold inspection
  cases hsession : st.session id with
  | error e =>
    have hnone : ∀ m, st.session id = .ok m → m.kind ≠ .file := by simp [hsession]
    rw [counted_of_no_file hnone]
    rfl
  | ok m =>
    by_cases hkind : m.kind ≠ .file
    · have hnone : ∀ m, st.session id = .ok m → m.kind ≠ .file := by simpa [hsession] using hkind
      simp only [if_pos hkind]
      rw [counted_of_no_file hnone]
      rfl
    · simp only [if_neg hkind, counted]
      cases st.opened id with
      | error e => rfl
      | ok file => exact size_inspectionOpened

/-- A file that is accessible counts as it lies at its path. -/
theorem counted_eq_lengthAt (h : st.Accessible id) : st.counted id = st.lengthAt id := by
  rw [← size_inspection]
  unfold inspection lengthAt
  cases hsession : st.session id with
  | error e => rfl
  | ok m =>
    by_cases hkind : m.kind = .file
    · obtain ⟨hopened, hfstat, hlock⟩ := h m hsession hkind
      have hlength := st.length m.ino m hfstat
      simp only [hkind, ne_eq, not_true_eq_false, if_false, hopened, size_inspectionOpened]
      have hsame : st.same m.ino id = true ↔ m.nlink = 1 := by
        simp [same, hfstat, hsession, hkind]
      have hunshared : st.unshared m.ino = isPrivate m.mode := by rw [unshared, hfstat]
      have hunlocked : st.lock m.ino = .ok () ↔ st.lock m.ino ≠ .error .wouldBlock := by
        cases hm : st.lock m.ino with
        | ok _ => simp
        | error e => cases e <;> simp_all
      simp only [hlength, hsame, hunshared, hunlocked, true_and]
    · simp only [hkind, ne_eq, not_false_eq_true, if_true, false_and, if_false]
      rfl

theorem size_inspectionReading : (st.inspectionReading readable id).size = st.counted id := by
  rw [← size_inspection]
  unfold inspectionReading
  cases st.opened id with
  | error e => rfl
  | ok file =>
    cases hread : readable file with
    | true => simp only [hread, if_true]
    | false =>
      simp only [hread, Bool.false_eq_true, if_false]
      cases st.inspection id <;> rfl

/-! ### Running the list when files may not be readable -/

section
variable (st readable)

/-- Whatever runs returns this, also when some files cannot be read. -/
def GivesReading {α : Type} (p : FsProgram α) (a : α) : Prop := Alone (st.effectReading readable) () (fun _ b => b = a) () p

end

theorem answersReading {r : FsRequest} {a : FsAnswer r} (h : st.answerReading readable r = some a) :
    Answers (st.effectReading readable) () () r a () := by
  intro b s
  rw [effectReading, h, Option.some.injEq]
  exact ⟨fun hb => ⟨hb.symm, rfl⟩, fun hb => hb.1.symm⟩

theorem answerReading_of_unread {r : FsRequest} (h : Unread r) : st.answerReading readable r = st.answer r := by
  cases r <;> first | rfl | cases h

/-- What does not read does not see the difference. -/
theorem Gives.reading {α : Type} {p : FsProgram α} {a : α} (hp : st.Gives p a) (hasks : p.Asks Unread fun _ => True) :
    st.GivesReading readable p a := by
  refine (hp.simulate (J := fun _ _ => True) hasks trivial fun _ _ r _ hr hx => ?_).mono fun _ b hb => ?_
  · obtain ⟨a, _, ha⟩ := hx
    have hsame : st.answerReading readable r = st.answer r := answerReading_of_unread hr
    exact ⟨⟨a, (), hsame.trans ha⟩, fun b _ hb => ⟨(), hsame.symm.trans hb, trivial⟩⟩
  · obtain ⟨_, -, hb⟩ := hb
    exact hb

theorem readListed_reading {size : Nat} (h : st.size file id = .ok size) : st.GivesReading readable
    (readListed file id size).run (if readable file then .ok (st.contents file) else .error .storeUnavailable) := by
  obtain ⟨⟨hsame, -⟩, rfl⟩ := size_ok_iff.mp h
  obtain ⟨m, hm⟩ := fstat_of_same hsame
  refine (alone_ask_bind (answersReading rfl)).mpr ?_
  cases readable file with
  | false => rfl
  | true =>
    simp only [if_true, List.take_length]
    have hmetadata : st.answerReading readable (.metadata file) = some (st.fstat file) := rfl
    refine (alone_ask_bind (answersReading hmetadata)).mpr ?_
    have hsize : ((st.contents file).length != (st.contents file).length ||
        !unchangedSize (st.fstat file) (st.contents file).length) = false := by
      simp [hm, unchangedSize, st.length file m hm]
    rw [hsize]
    have hidentity : st.GivesReading readable (identityMatches file id) true :=
      hsame ▸ identityMatches_gives.reading (identityMatches_asks trivial trivial)
    refine alone_lift_bind hidentity fun _ _ hsame => ?_
    rw [hsame]
    rfl

theorem inspectOpened_reading {budget : ListReadBudget} (hopened : st.opened id = .ok file)
    (hinspection : st.inspection id = st.inspectionOpened file id) : st.GivesReading readable
    (inspectOpened file id (.listing budget)) ((st.inspectionReading readable id).charged budget) := by
  have hlocked : st.GivesReading readable (lockedSize file id).run (st.size file id) :=
    lockedSize_gives.reading (lockedSize_asks trivial trivial trivial)
  refine Alone.bind hlocked fun _ x hx => ?_
  subst hx
  have hreading : st.inspectionReading readable id =
      if readable file then st.inspectionOpened file id
      else match st.inspectionOpened file id with
        | .refused e => .refused e
        | .read size _ _ => .read size (.error .storeUnavailable) fun _ h => by cases h := by
    rw [inspectionReading, hopened, hinspection]
  rw [hreading, inspectionOpened]
  cases hsize : st.size file id with
  | error e => cases readable file <;> rfl
  | ok size =>
    have hlisted : st.GivesReading readable (readListed file id size).run
        (if readable file then .ok (st.contents file) else .error .storeUnavailable) := readListed_reading hsize
    cases hread : readable file with
    | true =>
      simp only [hread, if_true, Inspection.charged] at hlisted ⊢
      cases budget.charge size with
      | error e => rfl
      | ok budget =>
        refine Alone.bind hlisted fun _ x hx => ?_
        subst hx
        rw [projected_contents]
        rfl
    | false =>
      simp only [hread, Bool.false_eq_true, if_false, Inspection.charged] at hlisted ⊢
      cases budget.charge size with
      | error e => rfl
      | ok budget =>
        refine Alone.bind hlisted fun _ x hx => ?_
        subst hx
        rfl

theorem inspectFile_reading {budget : ListReadBudget} : st.GivesReading readable (inspectFile id (.listing budget))
    ((st.inspectionReading readable id).charged budget) := by
  have hsession : st.answerReading readable (.symlinkMetadata (.session id)) = some (st.session id) := rfl
  refine (alone_request_bind (answersReading hsession)).mpr ?_
  have hrefused : ∀ {e}, st.inspection id = .refused e → st.inspectionReading readable id = .refused e := by
    intro e he
    rw [inspectionReading, he]
    cases st.opened id with
    | error _ => rfl
    | ok file => cases hread : readable file <;> simp only [hread, if_true, Bool.false_eq_true, if_false]
  have hinspection := inspection.eq_1 st id
  cases hm : st.session id with
  | error e =>
    rw [hm] at hinspection
    rw [hrefused hinspection]
    rfl
  | ok m =>
    by_cases hkind : m.kind ≠ .file
    · simp only [hm, if_pos hkind] at hinspection ⊢
      rw [hrefused hinspection]
      rfl
    · simp only [hm, if_neg hkind] at hinspection ⊢
      have hopen : st.answerReading readable (.openRead id) = some (st.opened id) := rfl
      refine (alone_request_bind (answersReading hopen)).mpr ?_
      cases hopened : st.opened id with
      | error e =>
        rw [hopened] at hinspection
        rw [hrefused hinspection]
        rfl
      | ok file =>
        rw [hopened] at hinspection
        refine Alone.bind (inspectOpened_reading hopened hinspection) fun _ x hx => ?_
        have hclose : st.answerReading readable (.close file) = some () := rfl
        exact (alone_request_bind (answersReading hclose)).mpr hx

theorem inventoriedReading {ns : List Bytes} (happlication : st.validate .application = .ok ())
    (hsessions : st.validate .sessions = .ok ()) (hnames : st.names = .ok ns) :
    Inventoried (st.inspectionReading readable) ns (st.effectReading readable) () where
  directory d s := by
    have hd : st.validate d = .ok () := by cases d <;> assumption
    have hgives : st.Gives (validatePrivateDirectory d).run (.ok ()) := hd ▸ validatePrivateDirectory_gives
    exact hgives.reading (validatePrivateDirectory_unread d)
  names s := by
    have hread : st.answerReading readable (.readDir .sessions) = some (st.names.map fun ns => ns.map .ok) := rfl
    refine (alone_ask_of_answers (answersReading hread)).mpr ?_
    rw [hnames]
    rfl
  inspect id budget s := inspectFile_reading

theorem inspectionReading_valid : (st.inspectionReading readable id).result ≠ .error .invalidSessionId := by
  have hvalid : (st.inspection id).result ≠ .error .invalidSessionId := inspection_valid
  unfold inspectionReading
  cases st.opened id with
  | error e => exact hvalid
  | ok file =>
    cases hread : readable file with
    | true => simpa only [hread, if_true] using hvalid
    | false =>
      simp only [hread, Bool.false_eq_true, if_false]
      cases hi : st.inspection id with
      | refused e =>
        rw [hi] at hvalid
        exact hvalid
      | read size result named => simp [Inspection.result]

/-! ## The bounds -/

/-- **The bounds of a list are exact**: it is too large when there are more
entries, more sessions among them or more to read of these than the limits
say, and else has what each session shows. It never reads more than it may,
and no addition is too large for its words. -/
theorem listFile_bounds (st : Still) (readable : Nat → Bool) {words : Nat} {limits : ListLimits} {ns : List Bytes}
    (hentries : limits.directoryEntries < words) (hcandidates : limits.candidates < words)
    (hbytes : limits.readBytes < UInt64.size) (happlication : st.validate .application = .ok ())
    (hsessions : st.validate .sessions = .ok ()) (hnames : st.names = .ok ns) :
    (∃ x, st.GivesReading readable (listFile limits).run x ∧
      (x = .error .inventoryTooLarge ↔ limits.directoryEntries < ns.length ∨
        limits.candidates < (sessionIds ns).length ∨ limits.readBytes < ((sessionIds ns).map st.counted).sum) ∧
      (x = .error .inventoryTooLarge ∨ ∃ summaries, x = .ok summaries ∧ ∀ id,
        summaries.filter (fun summary => decide (summary.sessionId = id)) =
          if id ∈ sessionIds ns then (entry id (st.inspectionReading readable id).result).toList else [])) ∧
    (∀ id, st.Accessible id → st.counted id = st.lengthAt id) ∧
    (∀ tr q, (listFile limits).run.Follows tr q → (∀ e ∈ tr, bytesRead e ≤ e.1.asked) →
      (tr.map bytesRead).sum ≤ limits.readBytes) ∧
    collectEntryChecked words limits = collectEntry limits ∧
    ∀ budget : ListReadBudget, budget.limit = limits.readBytes → budget.chargeChecked = budget.charge := by
  have hgives : st.GivesReading readable (listFile limits).run
      (SessionLog.inventory (st.inspectionReading readable) limits ns) :=
    listFile_alone (inventoriedReading happlication hsessions hnames)
  have hsizes : (fun id => (st.inspectionReading readable id).size) = st.counted :=
    funext fun _ => size_inspectionReading
  refine ⟨⟨_, hgives, ?_, ?_⟩, fun id => counted_eq_lengthAt, fun tr q => listFile_bytesRead,
    collectEntryChecked_eq hentries hcandidates, fun budget hlimit => ListReadBudget.chargeChecked_eq (hlimit ▸ hbytes)⟩
  · by_cases hwithin : WithinLimits (st.inspectionReading readable) limits ns
    · rw [SessionLog.inventory, if_pos hwithin]
      rw [WithinLimits, hsizes] at hwithin
      refine iff_of_false (by simp) ?_
      omega
    · rw [SessionLog.inventory, if_neg hwithin]
      rw [WithinLimits, hsizes] at hwithin
      refine iff_of_true rfl ?_
      omega
  · by_cases hwithin : WithinLimits (st.inspectionReading readable) limits ns
    · have hok : SessionLog.inventory (st.inspectionReading readable) limits ns = .ok _ := if_pos hwithin
      refine .inr ⟨_, hok, fun id => ?_⟩
      rw [inventory_filter (st.nodup ns hnames) hok, Inspection.listed_entry inspectionReading_valid]
      simp only [mem_sessionIds]
    · exact .inl (if_neg hwithin)

theorem nodup_sampleName (ns : List Bytes) (h : (.ok [fileName sampleId] : Except IoError (List Bytes)) = .ok ns) :
    ns.Nodup := by
  cases h
  exact List.nodup_singleton _

/-- Five bytes in a private file, which opens or does not. -/
def fiveBytes (opened : Except IoError Nat) : Still where
  directory _ := .ok (privateDirectory 0o700)
  names := .ok [fileName sampleId]
  session id := if id = sampleId then .ok { kind := .file, mode := 0o200, ino := 2, nlink := 1, len := 5 } else .error .notFound
  opened _ := opened
  fstat _ := .ok { kind := .file, mode := 0o200, ino := 2, nlink := 1, len := 5 }
  lock _ := .ok ()
  contents _ := List.replicate 5 lf
  nodup := nodup_sampleName
  absent ns id h hmem := by
    cases h
    have hne : id ≠ sampleId := by
      intro heq
      subst heq
      exact hmem List.mem_cons_self
    exact ⟨.notFound, if_neg hne⟩
  length _ _ h := by cases h; rfl

def fourBytes : ListLimits where
  candidates := 1
  directoryEntries := 1
  readBytes := 4

theorem listFile_bounds_sample :
    (fiveBytes (.ok 2)).GivesReading (fun _ => true) (listFile fourBytes).run (.error .inventoryTooLarge) := by
  have hwords : fourBytes.directoryEntries < UInt64.size := by decide
  obtain ⟨⟨x, hgives, hiff, -⟩, -⟩ := listFile_bounds (fiveBytes (.ok 2)) (fun _ => true) hwords (by decide) (by decide)
    rfl rfl rfl
  have hlarge : fourBytes.readBytes < ((sessionIds [fileName sampleId]).map (fiveBytes (.ok 2)).counted).sum := by
    decide +kernel
  obtain rfl := hiff.mpr (.inr (.inr hlarge))
  exact hgives

/-- A file that is not opened is not read, however long it is. -/
theorem listFile_unopened : ¬∀ (st : Still) (limits : ListLimits) (ns : List Bytes), st.validate .application = .ok () →
    st.validate .sessions = .ok () → st.names = .ok ns →
    (st.Gives (listFile limits).run (.error .inventoryTooLarge) ↔ limits.directoryEntries < ns.length ∨
      limits.candidates < (sessionIds ns).length ∨ limits.readBytes < ((sessionIds ns).map st.lengthAt).sum) := by
  intro h
  have hlarge : fourBytes.readBytes <
      ((sessionIds [fileName sampleId]).map (fiveBytes (.error .other)).lengthAt).sum := by decide +kernel
  have herror := (h (fiveBytes (.error .other)) fourBytes _ rfl rfl rfl).mpr (.inr (.inr hlarge))
  have hwithin : WithinLimits (fiveBytes (.error .other)).inspection fourBytes [fileName sampleId] := by decide +kernel
  have hlist : (fiveBytes (.error .other)).inventory fourBytes =
      SessionLog.inventory (fiveBytes (.error .other)).inspection fourBytes [fileName sampleId] := rfl
  rw [SessionLog.inventory, if_pos hwithin] at hlist
  have hgives : (fiveBytes (.error .other)).Gives (listFile fourBytes).run _ := listFile_gives fourBytes
  cases herror.eq (hlist ▸ hgives)

end Still

end AgentHarness.SessionLog
