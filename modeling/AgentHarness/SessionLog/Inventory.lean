/-
The listing as a whole. Whatever an inspection makes of each session, the
list has the sessions whose names are in the directory and are not missing,
each once and in one order, and neither the list nor whether it is too large
depends on the order of the directory.
-/
import Mathlib.Algebra.GroupWithZero.Nat
import Mathlib.Data.String.Basic
import AgentHarness.Lib.Alone
import AgentHarness.SessionLog.Files

namespace AgentHarness.SessionLog

open Text Except Interact

/-! ## Names -/

/-- The name of the file of a session. -/
def fileName (id : String) : Bytes := utf8 (id ++ ".jsonl")

theorem fileName_injective : Function.Injective fileName := by
  intro id id' h
  have htext := congrArg String.toList (utf8_inj h)
  rw [String.toList_append, String.toList_append] at htext
  exact String.toList_inj.mp (List.append_cancel_right htext)

theorem canonicalSessionId_eq_some {name : Bytes} {id : String} :
    canonicalSessionId name = some id ↔ validId id = true ∧ name = fileName id := by
  have hstrip : ∀ text : String, (".jsonl".toList.isSuffixOf text.toList = true ∧
      String.ofList (text.toList.take (text.length - ".jsonl".toList.length)) = id) ↔ text = id ++ ".jsonl" := by
    intro text
    rw [List.isSuffixOf_iff_suffix]
    constructor
    · intro h
      obtain ⟨⟨init, hinit⟩, rfl⟩ := h
      have hlen : text.length - ".jsonl".toList.length = init.length := by
        rw [← String.length_toList, ← hinit, List.length_append, Nat.add_sub_cancel]
      rw [hlen, ← hinit, List.take_left, ← String.toList_inj, String.toList_append, String.toList_ofList, hinit]
    · intro heq
      subst heq
      refine ⟨⟨id.toList, (String.toList_append ..).symm⟩, ?_⟩
      have hlen : (id ++ ".jsonl").length - ".jsonl".toList.length = id.toList.length := by
        rw [String.length_append, String.length_toList, String.length_toList, Nat.add_sub_cancel]
      rw [hlen, String.toList_append, List.take_left, String.ofList_toList]
  simp only [canonicalSessionId, Option.bind_eq_bind, Option.bind_eq_some_iff, ofUtf8?_eq_some]
  constructor
  · intro h
    obtain ⟨text, rfl, h⟩ := h
    split at h
    · rename_i hsuffix
      split at h
      · rename_i hvalid
        cases h
        exact ⟨hvalid, congrArg utf8 ((hstrip text).mp ⟨hsuffix, rfl⟩)⟩
      · cases h
    · cases h
  · intro h
    obtain ⟨hvalid, rfl⟩ := h
    obtain ⟨hsuffix, hid⟩ := (hstrip (id ++ ".jsonl")).mpr rfl
    exact ⟨_, rfl, by rw [if_pos hsuffix, hid, if_pos hvalid]⟩

/-- `<id>.jsonl`, the id being 32 lower case hex digits. -/
def Canonical (id : String) (name : Bytes) : Prop :=
  ((utf8 id).length = 32 ∧ ∀ byte ∈ utf8 id, 0x30 ≤ byte ∧ byte ≤ 0x39 ∨ 0x61 ≤ byte ∧ byte ≤ 0x66) ∧
    name = utf8 id ++ utf8 ".jsonl"

theorem validId_iff {id : String} : validId id = true ↔
    (utf8 id).length = 32 ∧ ∀ byte ∈ utf8 id, 0x30 ≤ byte ∧ byte ≤ 0x39 ∨ 0x61 ≤ byte ∧ byte ≤ 0x66 := by
  simp [validId]

theorem exists_canonical {names : List Bytes} {id : String} :
    (∃ name ∈ names, Canonical id name) ↔ validId id = true ∧ fileName id ∈ names := by
  simp only [Canonical, ← validId_iff, fileName, utf8_append]
  constructor
  · rintro ⟨_, hmem, hvalid, rfl⟩
    exact ⟨hvalid, hmem⟩
  · rintro ⟨hvalid, hmem⟩
    exact ⟨_, hmem, hvalid, rfl⟩

/-- The ids of the sessions whose names are among some names. -/
def sessionIds (names : List Bytes) : List String := names.filterMap canonicalSessionId

theorem mem_sessionIds {names : List Bytes} {id : String} :
    id ∈ sessionIds names ↔ validId id = true ∧ fileName id ∈ names := by
  simp only [sessionIds, List.mem_filterMap, canonicalSessionId_eq_some]
  constructor
  · intro h
    obtain ⟨name, hname, hvalid, rfl⟩ := h
    exact ⟨hvalid, hname⟩
  · intro h
    obtain ⟨hvalid, hname⟩ := h
    exact ⟨_, hname, hvalid, rfl⟩

theorem sessionIds_nodup {names : List Bytes} (h : names.Nodup) : (sessionIds names).Nodup := by
  refine h.filterMap fun a b id ha hb => ?_
  rw [(canonicalSessionId_eq_some.mp ha).2, (canonicalSessionId_eq_some.mp hb).2]

/-! ## Inspections -/

/-- What an inspection of a session comes to: it fails before the file's
size counts, or the size counts and something is made of the file. -/
inductive Inspection (id : String) where
  | refused (e : ShowError)
  | read (size : Nat) (result : Except ShowError ShowResult) (named : ∀ r, result = .ok r → r.projection.sessionId = id)

namespace Inspection
variable {id : String}

def size : Inspection id → Nat
  | .refused _ => 0
  | .read size _ _ => size

def result : Inspection id → Except ShowError ShowResult
  | .refused e => .error e
  | .read _ result _ => result

/-- What is listed of the session. -/
def listed (inspection : Inspection id) : List SessionSummary :=
  match inspection.result with
  | .ok r => [r.intoSummary]
  | .error e => listedError id e

/-- What `inspect_file` returns of it for a list, within a budget. -/
def charged (inspection : Inspection id) (budget : ListReadBudget) : Except FileInspectionError ShowResult × ReadPolicy :=
  match inspection with
  | .refused e => (.error (.shown e), .listing budget)
  | .read size result _ =>
    match budget.charge size with
    | .error e => (.error e, .listing budget)
    | .ok budget => (result.mapError .shown, .listing budget)

/-- What `inspect_file` returns of it. -/
def under (inspection : Inspection id) : ReadPolicy → Except FileInspectionError ShowResult × ReadPolicy
  | .showing => (inspection.result.mapError .shown, .showing)
  | .listing budget => inspection.charged budget

theorem listedError_sessionId {e : ShowError} {summary : SessionSummary} (h : summary ∈ listedError id e) :
    summary.sessionId = id := by
  cases e <;> simp only [listedError, List.not_mem_nil, List.mem_singleton] at h <;> rw [h] <;> rfl

theorem listed_sessionId {inspection : Inspection id} {summary : SessionSummary} (h : summary ∈ inspection.listed) :
    summary.sessionId = id := by
  unfold listed at h
  split at h
  · rename_i r hr
    obtain _ | ⟨size, result, named⟩ := inspection
    · cases hr
    · rw [List.mem_singleton.mp h]
      exact named r hr
  · exact listedError_sessionId h

theorem listed_eq (inspection : Inspection id) : inspection.listed = [] ∨ ∃ summary, inspection.listed = [summary] := by
  unfold listed
  split
  · exact .inr ⟨_, rfl⟩
  · rename_i e _
    cases e <;> simp [listedError]

end Inspection

/-- The one entry that a list is to have of a session that shows so, if any. -/
def entry (id : String) : Except ShowError ShowResult → Option SessionSummary
  | .ok r => some
    { sessionId := id
      createdAtUnixMs := some r.projection.createdAtUnixMs
      status := match r.projection.status with
        | .completed => .completed
        | .failed => .failed
        | .interrupted => .interrupted
      trailingFragment := r.trailingFragment }
  | .error .busy => some { sessionId := id, createdAtUnixMs := none, status := .busy, trailingFragment := false }
  | .error .corrupt => some { sessionId := id, createdAtUnixMs := none, status := .corrupt, trailingFragment := false }
  | .error .unsupportedVersion =>
    some { sessionId := id, createdAtUnixMs := none, status := .unsupported, trailingFragment := false }
  | .error .storeUnavailable =>
    some { sessionId := id, createdAtUnixMs := none, status := .unavailable, trailingFragment := false }
  | .error .missing | .error .invalidSessionId => none

theorem Inspection.listed_entry {id : String} {inspection : Inspection id}
    (hvalid : inspection.result ≠ .error .invalidSessionId) : inspection.listed = (entry id inspection.result).toList := by
  unfold listed
  split
  · rename_i r hr
    have hid : r.projection.sessionId = id := by
      cases inspection with
      | refused e => cases hr
      | read size result named => exact named r hr
    rw [hr, entry, ← hid]
    rfl
  · rename_i e he
    rw [he] at hvalid ⊢
    cases e with
    | invalidSessionId => exact absurd rfl hvalid
    | _ => rfl

/-- One entry, unless the session is missing. -/
theorem Inspection.listed_one {id : String} {inspection : Inspection id} (hfound : inspection.result ≠ .error .missing) :
    ∃ summary, inspection.listed = [summary] ∧ ∀ expected ∈ entry id inspection.result, summary = expected := by
  by_cases hvalid : inspection.result = .error .invalidSessionId
  · refine ⟨.unprojectable id .unavailable, by rw [listed, hvalid]; rfl, fun expected hexpected => ?_⟩
    rw [hvalid] at hexpected
    cases hexpected
  · rw [listed_entry hvalid]
    cases hentry : entry id inspection.result with
    | none =>
      unfold entry at hentry
      split at hentry <;> simp_all
    | some summary =>
      refine ⟨summary, rfl, fun expected hexpected => ?_⟩
      exact Option.some.inj hexpected

/-- The outcomes of inspecting each session. -/
abbrev Inspections := (id : String) → Inspection id

/-! ## The whole listing -/

section
variable (inspections : Inspections) (limits : ListLimits) (names : List Bytes)

/-- The limits are not exceeded. -/
def WithinLimits : Prop :=
  names.length ≤ limits.directoryEntries ∧ (sessionIds names).length ≤ limits.candidates ∧
    ((sessionIds names).map fun id => (inspections id).size).sum ≤ limits.readBytes

instance : Decidable (WithinLimits inspections limits names) := inferInstanceAs (Decidable (_ ∧ _))

/-- What `list` returns. -/
def inventory : Except ListError (List SessionSummary) :=
  if WithinLimits inspections limits names then
    .ok ((((sessionIds names).mergeSort fun a b => decide (a ≤ b)).flatMap fun id => (inspections id).listed).mergeSort
      summaryLe)
  else .error .inventoryTooLarge

/-- An environment in which the directories are as they must be, the sessions
directory has these names and inspecting a session comes to these outcomes. -/
structure Inventoried {ι σ : Type} (exec : Effect ι FsAnswer σ) (i : ι) : Prop where
  directory : ∀ d s, Alone exec i (fun _ x => x = .ok ()) s (validatePrivateDirectory d).run
  names : ∀ s, Alone exec i (fun _ x => x = .ok (names.map .ok)) s (request (.readDir .sessions))
  inspect : ∀ id budget s,
    Alone exec i (fun _ x => x = (inspections id).charged budget) s (inspectFile id (.listing budget))

end

section
variable {inspections : Inspections} {limits : ListLimits} {names : List Bytes}

theorem collectEntry_name {n : Nat} {ids : List String} {name : Bytes} (hn : n < limits.directoryEntries) :
    collectEntry limits (n, ids) (.ok name) =
      match canonicalSessionId name with
      | none => .ok (n + 1, ids)
      | some id => if ids.length < limits.candidates then .ok (n + 1, ids ++ [id]) else .error .inventoryTooLarge := by
  have hentries : decide (n + 1 > limits.directoryEntries) = false := decide_eq_false (by omega)
  simp only [collectEntry, Except.mapError, ok_bind, hentries, rejectIf_false]
  cases canonicalSessionId name with
  | none => rfl
  | some id =>
    by_cases hids : ids.length < limits.candidates
    · have hcandidates : decide (ids.length + 1 > limits.candidates) = false := decide_eq_false (by omega)
      simp only [hcandidates, rejectIf_false, ok_bind, if_pos hids]
      rfl
    · have hcandidates : decide (ids.length + 1 > limits.candidates) = true := decide_eq_true (by omega)
      simp only [hcandidates, rejectIf_true, error_bind, if_neg hids]

/-- The names are counted as they come, and the ids among them. -/
theorem foldlM_collectEntry {n : Nat} {ids : List String} (hn : n ≤ limits.directoryEntries)
    (hids : ids.length ≤ limits.candidates) :
    (names.map .ok).foldlM (collectEntry limits) (n, ids) =
      if n + names.length ≤ limits.directoryEntries ∧ ids.length + (sessionIds names).length ≤ limits.candidates then
        .ok (n + names.length, ids ++ sessionIds names)
      else .error .inventoryTooLarge := by
  induction names generalizing n ids with
  | nil => simp [sessionIds, hn, hids, pure, Except.pure]
  | cons name names ih =>
    rw [List.map_cons, List.foldlM_cons]
    by_cases hlt : n < limits.directoryEntries
    · have hadd : n + 1 + names.length = n + (names.length + 1) := by omega
      rw [collectEntry_name hlt]
      cases hname : canonicalSessionId name with
      | none =>
        simp only [ok_bind, ih (n := n + 1) hlt hids, sessionIds, List.filterMap_cons_none hname, List.length_cons, hadd]
      | some id =>
        have hids' : sessionIds (name :: names) = id :: sessionIds names := List.filterMap_cons_some hname
        rw [hids', List.length_cons, List.length_cons]
        by_cases hlt' : ids.length < limits.candidates
        · have hlength : ids.length + 1 + (sessionIds names).length = ids.length + ((sessionIds names).length + 1) := by
            omega
          have hfits : (ids ++ [id]).length ≤ limits.candidates := by
            rw [List.length_append]
            exact hlt'
          simp only [if_pos hlt', ok_bind, ih (n := n + 1) hlt hfits, List.length_append,
            List.length_singleton, hadd, hlength, List.append_assoc, List.singleton_append]
        · simp only [if_neg hlt', error_bind]
          rw [if_neg (by omega)]
    · have hmany : collectEntry limits (n, ids) (.ok name) = .error .inventoryTooLarge := by
        have hentries : decide (n + 1 > limits.directoryEntries) = true := decide_eq_true (by omega)
        simp only [collectEntry, Except.mapError, ok_bind, hentries, rejectIf_true, error_bind]
      rw [hmany, error_bind, if_neg (by simp only [List.length_cons]; omega)]

theorem collectCandidateIds_names : collectCandidateIds (names.map .ok) limits =
    if names.length ≤ limits.directoryEntries ∧ (sessionIds names).length ≤ limits.candidates then
      .ok ((sessionIds names).mergeSort fun a b => decide (a ≤ b))
    else .error .inventoryTooLarge := by
  rw [collectCandidateIds, foldlM_collectEntry (Nat.zero_le _) (Nat.zero_le _)]
  simp only [Nat.zero_add, List.length_nil, List.nil_append]
  split <;> rfl

/-! ## Running the list -/

section
variable {ι σ : Type} {exec : Effect ι FsAnswer σ} {i : ι} {s : σ}

theorem Inspection.charged_of_fits {id : String} {inspection : Inspection id} {budget : ListReadBudget}
    (h : budget.used + inspection.size ≤ budget.limit) : inspection.charged budget =
      (inspection.result.mapError .shown, .listing { budget with used := budget.used + inspection.size }) := by
  cases inspection with
  | refused e => rfl
  | read size result named =>
    have hcharge : budget.charge size = .ok { budget with used := budget.used + size } :=
      if_neg (Nat.not_lt.mpr h)
    rw [charged, hcharge]
    rfl

theorem Inspection.charged_of_exceeds {id : String} {inspection : Inspection id} {budget : ListReadBudget}
    (hused : budget.used ≤ budget.limit) (h : budget.limit < budget.used + inspection.size) :
    inspection.charged budget = (.error .inventoryTooLarge, .listing budget) := by
  cases inspection with
  | refused e => exact absurd hused (Nat.not_le.mpr h)
  | read size result named =>
    have hcharge : budget.charge size = .error .inventoryTooLarge := if_pos h
    rw [charged, hcharge]

/-- Every candidate is listed, unless the budget does not last. -/
theorem summarizeCandidates_alone (hinventoried : Inventoried inspections names exec i) {ids : List String} {budget : ListReadBudget}
    (hused : budget.used ≤ budget.limit) :
    Alone exec i (fun _ x => x = if budget.used + (ids.map fun id => (inspections id).size).sum ≤ budget.limit then
        .ok (ids.flatMap fun id => (inspections id).listed) else .error .inventoryTooLarge)
      s (summarizeCandidates ids budget).run := by
  induction ids generalizing s budget with
  | nil => exact alone_pure.mpr (by simp [hused])
  | cons id ids ih =>
    refine alone_lift_bind (hinventoried.inspect id budget s) fun s x hx => ?_
    subst hx
    simp only [List.map_cons, List.sum_cons, List.flatMap_cons, ← Nat.add_assoc]
    by_cases hfits : budget.used + (inspections id).size ≤ budget.limit
    · rw [Inspection.charged_of_fits hfits]
      have hgo : ∀ summaries, (inspections id).listed = summaries →
          Alone exec i (fun _ x => x = if budget.used + (inspections id).size +
              (ids.map fun id => (inspections id).size).sum ≤ budget.limit then
              .ok ((inspections id).listed ++ ids.flatMap fun id => (inspections id).listed)
            else .error .inventoryTooLarge)
          s (do return summaries ++ (← summarizeCandidates ids { budget with used := budget.used + (inspections id).size }) :
            FsCall ListError (List SessionSummary)).run := by
        rintro _ rfl
        refine alone_bind (ih hfits) (fun s e he => ?_) fun s b hb => ?_
        · split at he
          · cases he
          · rename_i hno
            rw [if_neg hno, ← he]
        · split at hb
          · rename_i hyes
            cases hb
            exact alone_pure.mpr (if_pos hyes).symm
          · cases hb
      cases hr : (inspections id).result with
      | ok shown => exact hgo [shown.intoSummary] (by rw [Inspection.listed, hr])
      | error e => exact hgo (listedError id e) (by rw [Inspection.listed, hr])
    · rw [Inspection.charged_of_exceeds hused (Nat.not_le.mp hfits)]
      exact alone_exit.mpr (if_neg (by omega)).symm

theorem listDirectoryExists_alone (hinventoried : Inventoried inspections names exec i) (d : Directory) :
    Alone exec i (fun _ x => x = .ok true) s (listDirectoryExists d).run := by
  refine alone_lift_bind (hinventoried.directory d s) fun s x hx => ?_
  subst hx
  exact alone_pure.mpr rfl

/-- The rest of the list, once the directory has been read. -/
theorem listNames_alone (hinventoried : Inventoried inspections names exec i) :
    Alone exec i (fun _ x => x = inventory inspections limits names) s (do
      let directory ← exit (Except.mapError (fun _ => .storeUnavailable) (.ok (names.map .ok) : Except IoError _))
      let candidates ← exit (collectCandidateIds directory limits)
      let summaries ← summarizeCandidates candidates { used := 0, limit := limits.readBytes }
      return summaries.mergeSort summaryLe : FsCall ListError (List SessionSummary)).run := by
  refine alone_exit_bind.mpr ⟨fun e he => (by cases he), fun entries hentries => ?_⟩
  cases hentries
  rw [collectCandidateIds_names]
  have hperm : ((sessionIds names).mergeSort fun a b => decide (a ≤ b)).Perm (sessionIds names) :=
    List.mergeSort_perm _ _
  have hsum : (((sessionIds names).mergeSort fun a b => decide (a ≤ b)).map fun id => (inspections id).size).sum =
      ((sessionIds names).map fun id => (inspections id).size).sum := (hperm.map _).sum_eq
  split
  · rename_i hcount
    refine alone_exit_bind.mpr ⟨fun e he => (by cases he), fun ids hids => ?_⟩
    cases hids
    refine alone_bind (summarizeCandidates_alone hinventoried (Nat.zero_le _)) (fun s e he => ?_) fun s summaries hs => ?_
    · rw [hsum, Nat.zero_add] at he
      split at he
      · cases he
      · rename_i hno
        rw [inventory, if_neg fun h => hno h.2.2, ← he]
    · rw [hsum, Nat.zero_add] at hs
      split at hs
      · rename_i hyes
        cases hs
        exact alone_pure.mpr (by rw [inventory, if_pos ⟨hcount.1, hcount.2, hyes⟩])
      · cases hs
  · rename_i hcount
    refine alone_exit_bind.mpr ⟨fun e he => ?_, fun ids hids => by cases hids⟩
    cases he
    rw [inventory, if_neg fun h => hcount ⟨h.1, h.2.1⟩]

/-- **The list is the inventory**, whatever else happens around it. -/
theorem listFile_alone (hinventoried : Inventoried inspections names exec i) :
    Alone exec i (fun _ x => x = inventory inspections limits names) s (listFile limits).run := by
  refine alone_bind (listDirectoryExists_alone hinventoried .application) (fun s e he => by cases he) fun s b hb => ?_
  cases hb
  refine alone_bind (listDirectoryExists_alone hinventoried .sessions) (fun s e he => by cases he) fun s b hb => ?_
  cases hb
  have hread : Alone exec i (fun _ x => x = .ok (.ok (names.map .ok))) s
      (ask (.readDir .sessions) : FsCall ListError _).run :=
    (hinventoried.names s).bind fun s x hx => by subst hx; rfl
  refine alone_bind hread (fun s e he => by cases he) fun s entries hentries => ?_
  cases hentries
  exact listNames_alone hinventoried

end

end

/-! ## The order -/

/-- Strictly before: newer, or as new and of a smaller id. What has a time is
before what has none. -/
def SessionSummary.Before (a b : SessionSummary) : Prop :=
  match a.createdAtUnixMs, b.createdAtUnixMs with
  | some s, some t => t < s ∨ s = t ∧ a.sessionId < b.sessionId
  | some _, none => True
  | none, some _ => False
  | none, none => a.sessionId < b.sessionId

section
variable {a b c : SessionSummary}

theorem summaryLe_total (a b : SessionSummary) : (summaryLe a b || summaryLe b a) = true := by
  have hid := le_total a.sessionId b.sessionId
  unfold summaryLe
  cases ha : a.createdAtUnixMs with
  | none => cases hb : b.createdAtUnixMs <;> simp [hid]
  | some s =>
    cases hb : b.createdAtUnixMs with
    | none => simp
    | some t =>
      rcases Nat.lt_trichotomy s.toNat t.toNat with h | h | h
      · simp [UInt64.lt_iff_toNat_lt.mpr h]
      · simp [UInt64.toNat_inj.mp h, hid]
      · simp [UInt64.lt_iff_toNat_lt.mpr h]

theorem summaryLe_trans (a b c : SessionSummary) (hab : summaryLe a b = true) (hbc : summaryLe b c = true) :
    summaryLe a c = true := by
  unfold summaryLe at *
  cases ha : a.createdAtUnixMs with
  | none =>
    cases hb : b.createdAtUnixMs with
    | some t => simp [ha, hb] at hab
    | none =>
      cases hc : c.createdAtUnixMs with
      | some u => simp [hb, hc] at hbc
      | none =>
        simp only [ha, hb, hc, decide_eq_true_eq] at *
        exact le_trans hab hbc
  | some s =>
    cases hc : c.createdAtUnixMs with
    | none => rfl
    | some u =>
      cases hb : b.createdAtUnixMs with
      | none => simp [hb, hc] at hbc
      | some t =>
        simp only [ha, hb, hc, Bool.or_eq_true, Bool.and_eq_true, beq_iff_eq, decide_eq_true_eq] at *
        rcases hab with h | ⟨rfl, h⟩ <;> rcases hbc with h' | ⟨rfl, h'⟩
        · exact .inl (UInt64.lt_trans h' h)
        · exact .inl h
        · exact .inl h'
        · exact .inr ⟨rfl, le_trans h h'⟩

theorem before_of_summaryLe (h : summaryLe a b = true) (hne : a.sessionId ≠ b.sessionId) : a.Before b := by
  unfold summaryLe at h
  unfold SessionSummary.Before
  cases ha : a.createdAtUnixMs with
  | none =>
    cases hb : b.createdAtUnixMs with
    | none =>
      simp only [ha, hb, decide_eq_true_eq] at h
      exact lt_of_le_of_ne h hne
    | some t => simp [ha, hb] at h
  | some s =>
    cases hb : b.createdAtUnixMs with
    | none => trivial
    | some t =>
      simp only [ha, hb, Bool.or_eq_true, Bool.and_eq_true, beq_iff_eq, decide_eq_true_eq] at h
      exact h.imp_right fun ⟨ht, hid⟩ => ⟨ht, lt_of_le_of_ne hid hne⟩

end

/-! ## What is in the inventory -/

section
variable {inspections : Inspections} {limits : ListLimits} {names : List Bytes}

theorem sessionIds_sorted {names' : List Bytes} (h : names'.Perm names) :
    ((sessionIds names').mergeSort fun a b => decide (a ≤ b)) = (sessionIds names).mergeSort fun a b => decide (a ≤ b) := by
  have hsorted : ∀ ids : List String, (ids.mergeSort fun a b => decide (a ≤ b)).Pairwise (· ≤ ·) := fun ids => by
    have htrans : ∀ a b c : String, decide (a ≤ b) = true → decide (b ≤ c) = true → decide (a ≤ c) = true :=
      fun a b c hab hbc => decide_eq_true (le_trans (of_decide_eq_true hab) (of_decide_eq_true hbc))
    have htotal : ∀ a b : String, (decide (a ≤ b) || decide (b ≤ a)) = true := fun a b => by simpa using le_total a b
    exact (List.pairwise_mergeSort htrans htotal ids).imp fun h => of_decide_eq_true h
  exact List.Perm.eq_of_pairwise (fun a b _ _ hab hba => le_antisymm hab hba) (hsorted _) (hsorted _)
    (((List.mergeSort_perm _ _).trans (h.filterMap _)).trans (List.mergeSort_perm _ _).symm)

/-- The candidates are the same, whatever the order of the directory. -/
theorem collectCandidateIds_perm {names' : List Bytes} (h : names'.Perm names) :
    collectCandidateIds (names'.map .ok) limits = collectCandidateIds (names.map .ok) limits := by
  have hids : (sessionIds names').Perm (sessionIds names) := h.filterMap _
  rw [collectCandidateIds_names, collectCandidateIds_names, sessionIds_sorted h, h.length_eq, hids.length_eq]

theorem inventory_perm {names' : List Bytes} (h : names'.Perm names) :
    inventory inspections limits names' = inventory inspections limits names := by
  have hids : (sessionIds names').Perm (sessionIds names) := h.filterMap _
  have hwithin : WithinLimits inspections limits names' ↔ WithinLimits inspections limits names := by
    rw [WithinLimits, WithinLimits, h.length_eq, hids.length_eq, (hids.map _).sum_eq]
  rw [inventory, inventory, sessionIds_sorted h]
  exact if_congr hwithin rfl rfl

theorem filter_listed (inspections : Inspections) (id id' : String) :
    (inspections id').listed.filter (fun summary => decide (summary.sessionId = id)) =
      if id' = id then (inspections id).listed else [] := by
  split
  · rename_i h
    subst h
    exact List.filter_eq_self.mpr fun summary hs => decide_eq_true (Inspection.listed_sessionId hs)
  · rename_i h
    refine List.filter_eq_nil_iff.mpr fun summary hs => ?_
    rw [Inspection.listed_sessionId hs, decide_eq_true_eq]
    exact h

theorem filter_flatMap_listed {ids : List String} (hids : ids.Nodup) (id : String) :
    (ids.flatMap fun id => (inspections id).listed).filter (fun summary => decide (summary.sessionId = id)) =
      if id ∈ ids then (inspections id).listed else [] := by
  induction ids with
  | nil => rfl
  | cons id' ids ih =>
    rw [List.nodup_cons] at hids
    rw [List.flatMap_cons, List.filter_append, filter_listed, ih hids.2]
    by_cases h : id' = id
    · subst h
      simp [hids.1]
    · simp [h, Ne.symm h]

variable {summaries : List SessionSummary}

theorem inventory_ok (h : inventory inspections limits names = .ok summaries) :
    WithinLimits inspections limits names ∧
      summaries.Perm ((sessionIds names).flatMap fun id => (inspections id).listed) ∧
      summaries.Pairwise (fun a b => summaryLe a b = true) := by
  unfold inventory at h
  split at h
  · rename_i hwithin
    cases h
    refine ⟨hwithin, (List.mergeSort_perm _ _).trans ((List.mergeSort_perm _ _).flatMap_right _), ?_⟩
    exact List.pairwise_mergeSort summaryLe_trans summaryLe_total _
  · cases h

/-- Each session in the directory is listed as its inspection says, and nothing else is. -/
theorem inventory_filter (hnames : names.Nodup) (h : inventory inspections limits names = .ok summaries) (id : String) :
    summaries.filter (fun summary => decide (summary.sessionId = id)) =
      if validId id = true ∧ fileName id ∈ names then (inspections id).listed else [] := by
  obtain ⟨-, hperm, -⟩ := inventory_ok h
  have hfilter := hperm.filter fun summary => decide (summary.sessionId = id)
  simp only [filter_flatMap_listed (sessionIds_nodup hnames), mem_sessionIds] at hfilter
  split at hfilter
  · rename_i hmem
    rw [if_pos hmem]
    rcases (inspections id).listed_eq with hl | ⟨summary, hl⟩ <;> rw [hl] at hfilter ⊢
    · exact List.perm_nil.mp hfilter
    · exact List.perm_singleton.mp hfilter
  · rename_i hmem
    rw [if_neg hmem]
    exact List.perm_nil.mp hfilter

theorem inventory_before (hnames : names.Nodup) (h : inventory inspections limits names = .ok summaries) :
    summaries.Pairwise SessionSummary.Before := by
  obtain ⟨-, hperm, hsorted⟩ := inventory_ok h
  have hdistinct : ((sessionIds names).flatMap fun id => (inspections id).listed).Pairwise
      fun a b => a.sessionId ≠ b.sessionId := by
    refine List.pairwise_flatMap.mpr ⟨fun id _ => ?_, (sessionIds_nodup hnames).imp fun hne a ha b hb => ?_⟩
    · rcases (inspections id).listed_eq with hl | ⟨summary, hl⟩ <;> rw [hl]
      · exact .nil
      · exact List.pairwise_singleton _ _
    · rw [Inspection.listed_sessionId ha, Inspection.listed_sessionId hb]
      exact hne
  have hne := (hperm.pairwise_iff fun {a b} hab => hab.symm).mpr hdistinct
  exact (hsorted.and hne).imp fun ⟨hle, hne⟩ => before_of_summaryLe hle hne

end

end AgentHarness.SessionLog
