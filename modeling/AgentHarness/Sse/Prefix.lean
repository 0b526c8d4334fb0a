/-
A stream that is cut off has no answer, and one whose answer is there has it
for good: the answer comes with the last byte of the blank line after a
`response.completed` event, and neither before it nor otherwise after it.
-/
import AgentHarness.Lib.Lines
import AgentHarness.Sse.Stream

namespace AgentHarness.Sse

open Text Except Lines

section
variable {fromStr : String → Option Json} {limits : Limits} {d d' : Decoder} {text : String} {xs ys bytes : Bytes}

/-! ## Before and after the answer -/

/-- An answer that is there stays. -/
theorem feed_sticky (h : feed fromStr limits xs d = .ok (some text, d')) :
    feed fromStr limits (xs ++ ys) d = .ok (some text, d') := by
  rw [feed_append, h]
  rfl

/-- Where there is no answer yet, there was none before. -/
theorem feed_unfinished (h : feed fromStr limits (xs ++ ys) d = .ok (none, d')) :
    ∃ d'', feed fromStr limits xs d = .ok (none, d'') := by
  rw [feed_append] at h
  cases hx : feed fromStr limits xs d with
  | error e =>
    rw [hx] at h
    cases h
  | ok x =>
    obtain ⟨_ | t, d''⟩ := x
    · exact ⟨d'', rfl⟩
    · rw [hx] at h
      cases h

/-- The answer comes at the end of a line. -/
theorem feed_completes (h : feed fromStr limits bytes d = .ok (some text, d')) :
    ∃ front rest d₀, bytes = front ++ lf :: rest ∧ feed fromStr limits front d = .ok (none, d₀) ∧
      endLine fromStr limits d₀.pending { d₀ with pending := [] } = .ok (some text, d') := by
  induction bytes generalizing d with
  | nil => cases h
  | cons byte bytes ih =>
    by_cases hlf : byte = lf
    · subst hlf
      rw [feed_lf] at h
      obtain ⟨⟨x, d₁⟩, hline, h⟩ := bind_ok_iff.mp h
      cases x with
      | some t =>
        cases h
        exact ⟨[], bytes, d, rfl, rfl, hline⟩
      | none =>
        obtain ⟨front, rest, d₀, rfl, hfront, hend⟩ := ih h
        refine ⟨lf :: front, rest, d₀, rfl, ?_, hend⟩
        rw [feed_lf, hline, ok_bind]
        exact hfront
    · rw [feed_byte hlf] at h
      split at h
      · rename_i hfits
        obtain ⟨front, rest, d₀, rfl, hfront, hend⟩ := ih h
        refine ⟨byte :: front, rest, d₀, rfl, ?_, hend⟩
        rw [feed_byte hlf, if_pos hfits]
        exact hfront
      · cases h

/-! ## The line the answer comes with -/

/-- What the end of an event leaves, and the answer, which only an event has. -/
theorem closeEvent_ok {x : Option String} (h : closeEvent fromStr limits d = .ok (x, d')) :
    d'.pending = d.pending ∧ ∀ t ∈ x, d.eventData ≠ "" ∧
      dispatch fromStr limits d.eventData d.state = .ok (.completed t, d'.state) := by
  unfold closeEvent at h
  by_cases hempty : d.eventData.isEmpty = true
  · rw [if_pos hempty] at h
    cases h
    exact ⟨rfl, fun t ht => nomatch ht⟩
  · rw [if_neg hempty] at h
    obtain ⟨⟨outcome, state⟩, hdispatch, h⟩ := bind_ok_iff.mp h
    cases outcome with
    | continued =>
      cases h
      exact ⟨rfl, fun t ht => nomatch ht⟩
    | completed text =>
      cases h
      refine ⟨rfl, fun t ht => ⟨by simpa using hempty, ?_⟩⟩
      cases ht
      exact hdispatch

theorem addField_pending {line : String} (h : addField limits line d = .ok d') : d'.pending = d.pending := by
  unfold addField at h
  split at h
  · cases h
    rfl
  · simp only [bind_ok_iff, pure_ok_iff] at h
    obtain ⟨_, -, rfl⟩ := h
    rfl

/-- What the end of a line leaves, and the answer, which only a blank line has. -/
theorem endLine_ok {line : Bytes} {x : Option String} (h : endLine fromStr limits line d = .ok (x, d')) :
    d'.pending = d.pending ∧ ∀ t ∈ x, stripCr line = [] ∧ d.eventData ≠ "" ∧
      dispatch fromStr limits d.eventData d.state = .ok (.completed t, d'.state) := by
  rw [endLine_eq] at h
  split at h
  · split at h
    · cases h
    · rename_i text htext
      split at h
      · rename_i hblank
        obtain ⟨hpending, hanswer⟩ := closeEvent_ok h
        obtain rfl : text = "" := by simpa using hblank
        exact ⟨hpending, fun t ht => ⟨ofUtf8?_eq_some.mp htext, hanswer t ht⟩⟩
      · obtain ⟨d₁, hfield, h⟩ := map_ok_iff.mp h
        cases h
        have hpending := addField_pending hfield
        exact ⟨hpending, fun t ht => nomatch ht⟩
  · cases h

/-- What is pending is what came after the last end of a line. -/
theorem feed_pending (h : feed fromStr limits bytes d = .ok (none, d')) (hpending : lf ∉ d.pending) :
    d'.pending = afterLast lf (d.pending ++ bytes) := by
  induction bytes generalizing d with
  | nil =>
    cases h
    have hlast := afterLast_terminated [] hpending
    rw [terminated_nil, List.nil_append] at hlast
    rw [List.append_nil, hlast]
  | cons byte bytes ih =>
    by_cases hlf : byte = lf
    · subst hlf
      rw [feed_lf] at h
      obtain ⟨⟨_ | t, d₁⟩, hline, h⟩ := bind_ok_iff.mp h
      · have hd₁ : d₁.pending = [] := (endLine_ok hline).1
        rw [ih h (by simp [hd₁]), hd₁, List.nil_append, afterLast_append_cons]
      · cases h
    · rw [feed_byte hlf] at h
      split at h
      · have happend : d.pending ++ byte :: bytes = d.pending ++ [byte] ++ bytes := List.append_cons ..
        rw [happend]
        exact ih h (by simp [hpending, Ne.symm hlf])
      · cases h

theorem stripCr_eq_nil {line : Bytes} (h : stripCr line = []) : line = [] ∨ line = [cr] := by
  unfold stripCr at h
  split at h
  · rename_i hlast
    obtain ⟨front, rfl⟩ := List.getLast?_eq_some_iff.mp hlast
    rw [List.dropLast_concat] at h
    rw [h]
    exact .inr rfl
  · exact .inl h

theorem ofName_completed {name : String} (h : EventType.ofName name = .completed) : name = "response.completed" := by
  unfold EventType.ofName at h
  split at h <;> first | rfl | cases h

theorem dispatch_completed {data : String} {state state' : TextState} {t : String}
    (h : dispatch fromStr limits data state = .ok (.completed t, state')) :
    ∃ event, fromStr data = some event ∧ getStr "type" event = some "response.completed" := by
  simp only [dispatch, bind_ok_iff, okOr_ok_iff] at h
  obtain ⟨event, hevent, name, hname, h⟩ := h
  cases htype : EventType.ofName name with
  | completed => exact ⟨event, hevent, ofName_completed htype ▸ hname⟩
  | outputItemDone =>
    simp only [htype, bind_ok_iff] at h
    obtain ⟨item, -, h⟩ := h
    cases item <;> cases h
  | outputTextDelta | outputTextDone =>
    simp only [htype, bind_ok_iff] at h
    obtain ⟨_, -, _, -, h⟩ := h
    cases h
  | failed | other =>
    rw [htype] at h
    cases h

/-! ## The shortest prefix with an answer -/

/-- The stream ends with the blank line that dispatches an event of type `response.completed`. -/
def EndsResponse (fromStr : String → Option Json) (limits : Limits) (stream : Bytes) : Prop :=
  ∃ front d event, stream = front ++ [lf] ∧ (afterLast lf front = [] ∨ afterLast lf front = [cr]) ∧
    feed fromStr limits front .initial = .ok (none, d) ∧ d.eventData ≠ "" ∧ fromStr d.eventData = some event ∧
    getStr "type" event = some "response.completed"

/-- Where an answer is, there is the end of the response it came with. -/
theorem feed_endsResponse {stream : Bytes} (h : feed fromStr limits stream .initial = .ok (some text, d)) :
    ∃ front d₀, front ++ [lf] <+: stream ∧ EndsResponse fromStr limits (front ++ [lf]) ∧
      feed fromStr limits front .initial = .ok (none, d₀) ∧
      feed fromStr limits (front ++ [lf]) .initial = .ok (some text, d) := by
  obtain ⟨front, rest, d₀, rfl, hfront, hend⟩ := feed_completes h
  obtain ⟨-, hanswer⟩ := endLine_ok hend
  obtain ⟨hblank, hdata, hdispatch⟩ := hanswer text rfl
  obtain ⟨event, hevent, htype⟩ := dispatch_completed hdispatch
  have hpending := feed_pending hfront List.not_mem_nil
  refine ⟨front, d₀, ⟨rest, by simp⟩, ⟨front, d₀, event, rfl, ?_, hfront, hdata, hevent, htype⟩, hfront, ?_⟩
  · exact stripCr_eq_nil (hpending ▸ hblank)
  · rw [feed_append, hfront, ok_bind]
    show feed fromStr limits [lf] d₀ = _
    rw [feed_lf, hend]
    rfl

/-- **A truncated stream never yields an answer, and a finished one is final.** -/
theorem decode_prefix {clock : Nat → Nat} {stream : Bytes} (htime : ∀ n, clock n < limits.totalBudget)
    (hlen : stream.length ≤ limits.responseBytes.toNat) (delivery : Delivery stream)
    (hdecode : decode fromStr limits clock delivery.results = .ok text) :
    ∃ P, P <+: stream ∧ EndsResponse fromStr limits P ∧
      ∀ (other : Bytes) (clock' : Nat → Nat) (delivery' : Delivery other), (∀ n, clock' n < limits.totalBudget) →
        other.length ≤ limits.responseBytes.toNat →
        (P <+: other → decode fromStr limits clock' delivery'.results = .ok text) ∧
        (other <+: P → other ≠ P → decode fromStr limits clock' delivery'.results = .error .invalid) := by
  rw [delivery.decode_eq htime hlen] at hdecode
  obtain ⟨⟨x, d⟩, hfeed, hfinish⟩ := bind_ok_iff.mp hdecode
  obtain rfl : x = some text := okOr_ok_iff.mp hfinish
  obtain ⟨front, d₀, hpre, hends, hfront, hwhole⟩ := feed_endsResponse hfeed
  refine ⟨front ++ [lf], hpre, hends, ?_⟩
  intro other clock' delivery' htime' hlen'
  rw [delivery'.decode_eq htime' hlen']
  constructor
  · intro h
    obtain ⟨more, rfl⟩ := h
    rw [feed_sticky hwhole]
    rfl
  · intro hother hne
    have hshort : other <+: front := (List.prefix_concat_iff.mp hother).resolve_left hne
    obtain ⟨more, rfl⟩ := hshort
    obtain ⟨d₁, hd₁⟩ := feed_unfinished hfront
    rw [hd₁]
    rfl

end

/-- The sample stream as far as its answer. -/
theorem decode_prefix_sample : ∃ P, P <+: sampleStream ∧ EndsResponse serdeFromStr .production P ∧
    decode serdeFromStr .production (fun _ => 0) (Delivery.bytewise P).results = .ok "é" := by
  have hlen : sampleStream.length ≤ Limits.production.responseBytes.toNat := by decide +kernel
  obtain ⟨P, hpre, hends, h⟩ := decode_prefix sample_inTime hlen (Delivery.bytewise sampleStream) sample_decoded
  obtain ⟨hfinal, -⟩ := h P _ (Delivery.bytewise P) sample_inTime (hpre.length_le.trans hlen)
  exact ⟨P, hpre, hends, hfinal List.prefix_rfl⟩

end AgentHarness.Sse
