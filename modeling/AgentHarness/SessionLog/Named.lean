/-
The ids that the session log returns, whatever its files answer: what is
started, shown and listed is named by ids that can be ones.
-/
import AgentHarness.SessionLog.Bounds
import AgentHarness.SessionLog.Reading

namespace AgentHarness.SessionLog

open Text Except Interact

/-- Any request may be made, and answered in any way. -/
abbrev anyFs : Contract FsRequest FsAnswer := .free fun _ _ => True

/-! ## Starting -/

theorem startFileWith_named {prompt : String} {retries : Nat} {sources : Sources} {h : FsHistory} :
    (startFileWith prompt retries sources).run.Meets anyFs (fun _ x => ∀ w, x = .ok w → validId w.writer.sessionId = true) h := by
  induction retries generalizing sources h with
  | zero => exact fun w hw => nomatch hw
  | succ retries ih =>
    refine meets_exit_bind.mpr ⟨fun _ _ _ hx => (nomatch hx), fun drawn hdrawn => ?_⟩
    obtain ⟨initial, sources'⟩ := drawn
    have hvalid : validId initial.sessionId = true := by
      obtain ⟨session, rfl, ids, times, rfl⟩ := initialRecords_session hdrawn
      obtain ⟨-, -, rfl, -⟩ := session.initialRecords_sources.mp hdrawn
      exact session.valid _ List.mem_cons_self
    refine meets_lift_bind (Program.meets_any _) fun h created _ => ?_
    cases created with
    | error e =>
      cases e with
      | alreadyExists => exact ih
      | _ => exact fun w hw => nomatch hw
    | ok file =>
      refine meets_lift_bind (Program.meets_any _) fun h published _ => ?_
      cases published with
      | error e => exact meets_lift_bind (Program.meets_any _) fun h _ _ w hw => nomatch hw
      | ok _ =>
        intro w hw
        cases hw
        exact hvalid

/-- **A session is started under an id that can be one.** -/
theorem startFile_named {sources : Sources} {prompt : String} {h : FsHistory} :
    (startFile sources prompt).run.Meets anyFs (fun _ x => ∀ w, x = .ok w → validId w.writer.sessionId = true) h := by
  refine meets_lift_bind (Program.meets_any _) fun h _ _ => ?_
  refine meets_exit_bind.mpr ⟨fun _ _ _ hx => (nomatch hx), fun _ _ => ?_⟩
  refine meets_lift_bind (Program.meets_any _) fun h _ _ => ?_
  exact meets_exit_bind.mpr ⟨fun _ _ _ hx => (nomatch hx), fun _ _ => startFileWith_named⟩

/-! ## Showing -/

/-- What is shown has this id, and it can be one. -/
def NamedBy (id : String) (x : Except FileInspectionError ShowResult) : Prop :=
  ∀ r, x = .ok r → r.projection.sessionId = id ∧ validId id = true

section
variable {id : String} {h : FsHistory}

theorem projected_named (bytes : Except ShowError Bytes) : NamedBy id (projected id bytes) := by
  intro r hr
  cases bytes with
  | error e => cases hr
  | ok bytes => exact project_id (of_mapError_ok hr)

theorem inspectOpened_named (file : Nat) (policy : ReadPolicy) :
    (inspectOpened file id policy).Meets anyFs (fun _ x => NamedBy id x.1) h := by
  refine (Program.meets_any _).bind fun h size _ => ?_
  cases size with
  | error e => exact fun r hr => nomatch hr
  | ok size =>
    cases policy with
    | showing => exact (Program.meets_any _).bind fun h bytes _ => projected_named bytes
    | listing budget =>
      dsimp only
      cases budget.charge size with
      | error e => exact fun r hr => nomatch hr
      | ok budget => exact (Program.meets_any _).bind fun h bytes _ => projected_named bytes

theorem inspectFile_named (policy : ReadPolicy) :
    (inspectFile id policy).Meets anyFs (fun _ x => NamedBy id x.1) h := by
  refine Program.meets_request_bind.mpr ⟨trivial, fun m _ => ?_⟩
  cases m with
  | error e => exact fun r hr => nomatch hr
  | ok m =>
    dsimp only
    split
    · exact fun r hr => nomatch hr
    · refine Program.meets_request_bind.mpr ⟨trivial, fun file _ => ?_⟩
      cases file with
      | error e => exact fun r hr => nomatch hr
      | ok file => exact (inspectOpened_named file policy).bind fun h x hx => ⟨trivial, fun _ _ => hx⟩

/-- **A session is shown under its own id.** -/
theorem showSession_named : (showSession id).run.Meets anyFs
    (fun _ x => ∀ r, x = .ok r → r.projection.sessionId = id ∧ validId id = true) h := by
  unfold showSession
  split
  · exact fun r hr => nomatch hr
  · refine meets_bind (Program.meets_any _) (fun _ _ _ r hr => nomatch hr) fun h _ _ => ?_
    refine meets_bind (Program.meets_any _) (fun _ _ _ r hr => nomatch hr) fun h _ _ => ?_
    exact meets_lift_bind (inspectFile_named .showing) fun h x hx => meets_exit.mpr fun r hr => hx r (of_mapError_ok hr)

end

/-! ## Listing -/

/-- Every session of a list has an id that can be one. -/
def AllNamed (summaries : List SessionSummary) : Prop := ∀ summary ∈ summaries, validId summary.sessionId = true

theorem collectCandidateIds_named {entries : List (Except IoError Bytes)} {limits : ListLimits} {ids : List String}
    (h : collectCandidateIds entries limits = .ok ids) : ∀ id ∈ ids, validId id = true := by
  simp only [collectCandidateIds, bind_ok_iff] at h
  obtain ⟨⟨count, candidates⟩, hcollected, h⟩ := h
  cases h
  have hvalid : ∀ id ∈ candidates, validId id = true := by
    refine foldlM_keeps (I := fun acc : Nat × List String => ∀ id ∈ acc.2, validId id = true)
      (fun acc entry next hacc hnext => ?_) (by simp) hcollected
    simp only [collectEntry, bind_ok_iff] at hnext
    obtain ⟨fileName, -, _, -, hnext⟩ := hnext
    split at hnext
    · cases hnext
      exact hacc
    · rename_i sessionId hid
      obtain ⟨_, -, hnext⟩ := bind_ok_iff.mp hnext
      cases hnext
      rw [List.forall_mem_append, List.forall_mem_singleton]
      exact ⟨hacc, (canonicalSessionId_eq_some.mp hid).1⟩
  exact fun id hid => hvalid id (List.mem_mergeSort.mp hid)

theorem summarizeCandidates_named {candidates : List String} {budget : ListReadBudget} {h : FsHistory}
    (hvalid : ∀ id ∈ candidates, validId id = true) :
    (summarizeCandidates candidates budget).run.Meets anyFs (fun _ x => ∀ summaries, x = .ok summaries → AllNamed summaries) h := by
  induction candidates generalizing budget h with
  | nil =>
    intro summaries hx
    cases hx
    nofun
  | cons id candidates ih =>
    rw [List.forall_mem_cons] at hvalid
    have hrest : ∀ (front : List SessionSummary) {budget : ListReadBudget} {h : FsHistory}, (∀ s ∈ front, s.sessionId = id) →
        (do return front ++ (← summarizeCandidates candidates budget) : FsCall ListError (List SessionSummary)).run.Meets anyFs
          (fun _ x => ∀ summaries, x = .ok summaries → AllNamed summaries) h := by
      intro front budget h hfront
      refine meets_bind (ih hvalid.2) (fun _ _ _ _ hx => nomatch hx) fun h rest hrest => ?_
      intro summaries hx
      cases hx
      refine List.forall_mem_append.mpr ⟨fun s hs => ?_, hrest rest rfl⟩
      rw [hfront s hs]
      exact hvalid.1
    refine meets_lift_bind (inspectFile_named (.listing budget)) fun h x hx => ?_
    obtain ⟨result, policy⟩ := x
    cases result with
    | ok shown =>
      refine hrest [shown.intoSummary] fun s hs => ?_
      rw [List.mem_singleton.mp hs]
      exact (hx shown rfl).1
    | error e =>
      cases e with
      | inventoryTooLarge => exact meets_exit.mpr fun summaries hx => nomatch hx
      | shown e => exact hrest (listedError id e) fun s hs => Inspection.listedError_sessionId hs

/-- **What is listed has ids that can be ones.** -/
theorem listFile_named {limits : ListLimits} {h : FsHistory} :
    (listFile limits).run.Meets anyFs (fun _ x => ∀ summaries, x = .ok summaries → AllNamed summaries) h := by
  have hnil : ∀ summaries, (Except.ok [] : Except ListError (List SessionSummary)) = .ok summaries → AllNamed summaries := by
    intro summaries hx
    cases hx
    nofun
  refine meets_bind (Program.meets_any _) (fun _ _ _ _ hx => nomatch hx) fun h exists₁ _ => ?_
  cases exists₁ with
  | false => exact hnil
  | true =>
    refine meets_bind (Program.meets_any _) (fun _ _ _ _ hx => nomatch hx) fun h exists₂ _ => ?_
    cases exists₂ with
    | false => exact hnil
    | true =>
      refine meets_ask_bind.mpr ⟨trivial, fun directory _ => ?_⟩
      refine meets_exit_bind.mpr ⟨fun _ _ _ hx => (nomatch hx), fun entries _ => ?_⟩
      refine meets_exit_bind.mpr ⟨fun _ _ _ hx => (nomatch hx), fun candidates hcandidates => ?_⟩
      refine meets_bind (summarizeCandidates_named (collectCandidateIds_named hcandidates)) (fun _ _ _ _ hx => nomatch hx)
        fun h summaries hsummaries => ?_
      intro sorted hx
      cases hx
      exact fun s hs => hsummaries summaries rfl s (List.mem_mergeSort.mp hs)

end AgentHarness.SessionLog
