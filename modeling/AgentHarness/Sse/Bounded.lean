/-
The texts that the decoder keeps, and the one it returns, are within the
limit for texts: whatever is read, and whatever the clock says.
-/
import AgentHarness.Sse.Decode

namespace AgentHarness.Sse

open Text Except Clock

/-- Every text of the state is within the limit. -/
structure TextState.Bounded (limits : Limits) (state : TextState) : Prop where
  deltas : state.deltas.utf8ByteSize ≤ limits.textBytes.toNat
  outputItem : ∀ text ∈ state.outputItem, text.utf8ByteSize ≤ limits.textBytes.toNat
  done : ∀ text ∈ state.done, text.utf8ByteSize ≤ limits.textBytes.toNat

section
variable {fromStr : String → Option Json} {limits : Limits} {state : TextState}

theorem TextState.Bounded.initial : TextState.initial.Bounded limits where
  deltas := Nat.zero_le _
  outputItem := fun _ h => nomatch h
  done := fun _ h => nomatch h

/-! ## Events -/

theorem appendBounded_size {target text s : String} (h : appendBounded limits target text = .ok s) :
    s.utf8ByteSize ≤ limits.textBytes.toNat := by
  rw [appendBounded, within_checkedAdd] at h
  split at h
  · cases h
    rw [String.utf8ByteSize_append]
    assumption
  · cases h

theorem ensureTextBound_size {text : String} {u : Unit} (h : ensureTextBound limits text = .ok u) :
    text.utf8ByteSize ≤ limits.textBytes.toNat := by
  rw [ensureTextBound, rejectIf_ok_iff, decide_eq_false_iff_not] at h
  exact Nat.not_lt.mp h

theorem appendParts_size {content : List Json} {text s : String} (htext : text.utf8ByteSize ≤ limits.textBytes.toNat)
    (h : content.foldlM (appendPart limits) text = .ok s) : s.utf8ByteSize ≤ limits.textBytes.toNat := by
  induction content generalizing text with
  | nil =>
    cases h
    exact htext
  | cons part content ih =>
    rw [List.foldlM_cons] at h
    obtain ⟨text', hpart, h⟩ := bind_ok_iff.mp h
    refine ih ?_ h
    unfold appendPart at hpart
    split at hpart
    · cases hpart
      exact htext
    · exact appendBounded_size hpart

theorem assistantItemText_size {event : Json} {item : Option String} (h : assistantItemText limits event = .ok item) :
    ∀ text ∈ item, text.utf8ByteSize ≤ limits.textBytes.toNat := by
  unfold assistantItemText at h
  obtain ⟨_, -, h⟩ := bind_ok_iff.mp h
  split at h
  · cases h
    exact fun _ hnone => nomatch hnone
  · obtain ⟨text, htext, h⟩ := bind_ok_iff.mp h
    cases h
    intro text' hitem
    rw [Option.mem_def, Option.ite_none_left_eq_some] at hitem
    obtain ⟨-, hsome⟩ := hitem
    cases hsome
    exact appendParts_size (Nat.zero_le _) htext

theorem TextState.Bounded.answer (hstate : state.Bounded limits) {text : String} (h : state.answer = .ok text) :
    text.utf8ByteSize ≤ limits.textBytes.toNat := by
  simp only [TextState.answer, bind_ok_iff, okOr_ok_iff, pure_ok_iff] at h
  obtain ⟨text', hsome, -, -, rfl⟩ := h
  rcases Option.or_eq_some_iff.mp hsome with hfirst | ⟨-, hdone⟩
  · rcases Option.or_eq_some_iff.mp hfirst with hitem | ⟨-, hdeltas⟩
    · exact hstate.outputItem _ hitem
    · rw [Option.ite_none_left_eq_some] at hdeltas
      obtain ⟨-, hsome⟩ := hdeltas
      cases hsome
      exact hstate.deltas
  · exact hstate.done _ hdone

/-- **An event leaves the texts within the limit**, and so is the one it completes. -/
theorem TextState.Bounded.dispatch (hstate : state.Bounded limits) {data : String} {outcome : EventOutcome}
    {state' : TextState} (h : dispatch fromStr limits data state = .ok (outcome, state')) :
    state'.Bounded limits ∧ ∀ text, outcome = .completed text → text.utf8ByteSize ≤ limits.textBytes.toNat := by
  simp only [Sse.dispatch, bind_ok_iff, okOr_ok_iff] at h
  obtain ⟨event, -, name, -, h⟩ := h
  have hcontinued : ∀ text, EventOutcome.continued = .completed text → text.utf8ByteSize ≤ limits.textBytes.toNat := by
    intro text hc
    cases hc
  cases htype : EventType.ofName name with
  | outputTextDelta =>
    simp only [htype, bind_ok_iff, pure_ok_iff] at h
    obtain ⟨delta, -, deltas, hdeltas, h⟩ := h
    cases h
    exact ⟨⟨appendBounded_size hdeltas, hstate.outputItem, hstate.done⟩, hcontinued⟩
  | outputItemDone =>
    simp only [htype, bind_ok_iff] at h
    obtain ⟨item, hitem, h⟩ := h
    cases item with
    | none =>
      cases h
      exact ⟨hstate, hcontinued⟩
    | some text =>
      cases h
      exact ⟨⟨hstate.deltas, assistantItemText_size hitem, hstate.done⟩, hcontinued⟩
  | outputTextDone =>
    simp only [htype, bind_ok_iff, pure_ok_iff] at h
    obtain ⟨text, -, u, hbound, h⟩ := h
    cases h
    refine ⟨⟨hstate.deltas, hstate.outputItem, fun t ht => ?_⟩, hcontinued⟩
    cases ht
    exact ensureTextBound_size hbound
  | completed =>
    simp only [htype, bind_ok_iff, pure_ok_iff] at h
    obtain ⟨text, hanswer, h⟩ := h
    cases h
    refine ⟨hstate, fun t ht => ?_⟩
    cases ht
    exact hstate.answer hanswer
  | failed =>
    rw [htype] at h
    cases h
  | other =>
    rw [htype] at h
    cases h
    exact ⟨hstate, hcontinued⟩

/-! ## Lines and reads -/

/-- What is left is within the limit, and so is the answer, if it is there. -/
def Bounded (limits : Limits) (x : Option String × Decoder) : Prop :=
  x.2.state.Bounded limits ∧ ∀ text ∈ x.1, text.utf8ByteSize ≤ limits.textBytes.toNat

variable {clock : Nat → Nat} {d : Decoder}

theorem addField_state {line : String} {d' : Decoder} (h : addField limits line d = .ok d') : d'.state = d.state := by
  unfold addField at h
  split at h
  · cases h
    rfl
  · simp only [bind_ok_iff, pure_ok_iff] at h
    obtain ⟨_, -, rfl⟩ := h
    rfl

theorem closeEvent_bounded (hd : d.state.Bounded limits) {x : Option String × Decoder}
    (h : closeEvent fromStr limits d = .ok x) : Bounded limits x := by
  unfold closeEvent at h
  by_cases hempty : d.eventData.isEmpty = true
  · rw [if_pos hempty] at h
    cases h
    exact ⟨hd, fun _ hnone => nomatch hnone⟩
  · rw [if_neg hempty] at h
    obtain ⟨⟨outcome, state⟩, hdispatch, h⟩ := bind_ok_iff.mp h
    obtain ⟨hstate, htext⟩ := hd.dispatch hdispatch
    cases outcome with
    | continued =>
      cases h
      exact ⟨hstate, fun _ hnone => nomatch hnone⟩
    | completed text =>
      cases h
      refine ⟨hstate, fun t ht => ?_⟩
      cases ht
      exact htext text rfl

theorem processLine_bounded (line : Bytes) (hd : d.state.Bounded limits) :
    Ensures (Bounded limits) (processLine fromStr limits clock line d) := by
  refine ensures_lift_bind _ fun eventBytes _ => ensures_lift_bind _ fun text _ => ?_
  by_cases hblank : text.isEmpty = true
  · simp only [hblank, if_true]
    exact ensures_deadline_bind (ensures_lift _ fun x hx => closeEvent_bounded (d := { d with eventBytes }) hd hx)
  · simp only [hblank]
    refine ensures_lift_bind _ fun d' hfield => ensures_pure ?_
    refine ⟨?_, fun _ hnone => nomatch hnone⟩
    rw [addField_state hfield]
    exact hd

theorem processChunk_bounded (chunk : Bytes) (hd : d.state.Bounded limits) :
    Ensures (Bounded limits) (processChunk fromStr limits clock chunk d) := by
  induction chunk generalizing d with
  | nil => exact ensures_pure ⟨hd, fun _ hnone => nomatch hnone⟩
  | cons byte chunk ih =>
    unfold processChunk
    by_cases hlf : byte = lf
    · simp only [hlf, if_true]
      refine (processLine_bounded d.pending (d := { d with pending := [] }) hd).bind fun x hx => ?_
      obtain ⟨_ | text, d'⟩ := x
      · exact ih hx.1
      · exact ensures_pure hx
    · simp only [hlf, if_false]
      exact ensures_lift_bind _ fun _ _ => ih (d := { d with pending := d.pending ++ [byte] }) hd

theorem decodeFrom_bounded (reads : List (Except ReadError Bytes)) (responseBytes : Nat) (hd : d.state.Bounded limits) :
    Ensures (fun text : String => text.utf8ByteSize ≤ limits.textBytes.toNat)
      (decodeFrom fromStr limits clock reads responseBytes d) := by
  induction reads generalizing responseBytes d with
  | nil => exact ensures_deadline_bind (ensures_deadline_bind (ensures_throw _))
  | cons read reads ih =>
    unfold decodeFrom
    refine ensures_deadline_bind (ensures_lift_bind _ fun chunk _ => ensures_deadline_bind ?_)
    refine ensures_lift_bind _ fun _ _ => ensures_lift_bind _ fun responseBytes _ => ?_
    refine (processChunk_bounded chunk hd).bind fun x hx => ?_
    obtain ⟨_ | text, d'⟩ := x
    · exact ih _ hx.1
    · exact ensures_pure (hx.2 text rfl)

end

/-- **Whatever the decoder returns is within the limit.** -/
theorem decode_bounded {fromStr : String → Option Json} {limits : Limits} {clock : Nat → Nat}
    {reads : List (Except ReadError Bytes)} {text : String} (h : decode fromStr limits clock reads = .ok text) :
    text.utf8ByteSize ≤ limits.textBytes.toNat :=
  (decodeFrom_bounded reads 0 .initial).begun h

end AgentHarness.Sse
