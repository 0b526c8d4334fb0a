/-
The counters of the decoder after every byte: what has been counted of the
event bounds what is kept of it, what is counted is within the limits, and
so no sum is too large for a word (`decode_counts`). The points at which
this holds are those that decoding passes (`Reaches.resume`), and so an event
is refused at one of them exactly when its lines so far are too large.
-/
import AgentHarness.Sse.Bounded
import AgentHarness.Sse.Framing

namespace AgentHarness.Sse

open Text Except Clock Lines

section
variable {fromStr : String → Option Json} {limits : Limits} {clock : Nat → Nat} {d d' : Decoder}

/-! ## What the clock does not change -/

theorem processLine_ensures (line : Bytes) (d : Decoder) :
    Ensures (fun x => endLine fromStr limits line d = .ok x) (processLine fromStr limits clock line d) := by
  refine ensures_lift_bind _ fun eventBytes hbytes => ensures_lift_bind _ fun text htext => ?_
  have hend : endLine fromStr limits line d =
      if text.isEmpty then closeEvent fromStr limits { d with eventBytes }
      else addField limits text { d with eventBytes } >>= fun d' => pure (none, d') := by
    unfold endLine
    dsimp only
    rw [hbytes, ok_bind, htext, ok_bind]
  by_cases hblank : text.isEmpty = true
  · simp only [hblank, if_true] at hend ⊢
    exact ensures_deadline_bind (ensures_lift _ fun x hx => hend.trans hx)
  · simp only [hblank] at hend ⊢
    refine ensures_lift_bind _ fun d' hfield => ensures_pure ?_
    rw [hend, hfield]
    rfl

/-- Whatever comes of some bytes comes of them without the clock. -/
theorem processChunk_ensures (chunk : Bytes) (d : Decoder) :
    Ensures (fun x => feed fromStr limits chunk d = .ok x) (processChunk fromStr limits clock chunk d) := by
  induction chunk generalizing d with
  | nil => exact ensures_pure rfl
  | cons byte chunk ih =>
    unfold processChunk
    by_cases hlf : byte = lf
    · simp only [hlf, if_true]
      refine (processLine_ensures d.pending { d with pending := [] }).bind fun x hx => ?_
      obtain ⟨_ | text, d'⟩ := x
      · refine (ih d').mono fun y hy => ?_
        rw [feed_lf, hx, ok_bind]
        exact hy
      · refine ensures_pure ?_
        rw [feed_lf, hx]
        rfl
    · simp only [hlf, if_false]
      refine ensures_lift_bind _ fun length hlength => (ih _).mono fun y hy => ?_
      rw [Word.checkedAdd_bind, within_checkedAdd] at hlength
      rw [feed_byte hlf]
      split at hlength
      · rename_i hfits
        rw [if_pos hfits]
        exact hy
      · cases hlength

/-- The bytes of a read after one that has been processed. -/
theorem processChunk_byte {byte : UInt8} {left : Bytes} {n n' : Nat}
    (h : (processChunk fromStr limits clock [byte] d).run n = .ok ((none, d'), n')) :
    (processChunk fromStr limits clock (byte :: left) d).run n = (processChunk fromStr limits clock left d').run n' := by
  rw [processChunk] at h ⊢
  split at h
  · rename_i hlf
    rw [StateT.run_bind] at h
    obtain ⟨⟨⟨_ | text, d₁⟩, n₁⟩, hline, h⟩ := bind_ok_iff.mp h
    · cases h
      rw [if_pos hlf, StateT.run_bind, hline]
      rfl
    · cases h
  · rename_i hlf
    rw [StateT.run_bind] at h
    obtain ⟨⟨length, n₁⟩, hlength, h⟩ := bind_ok_iff.mp h
    cases h
    rw [if_neg hlf, StateT.run_bind, hlength]
    rfl

/-! ## After every byte -/

/-- A point of the two loops: the bytes that have been counted of the
response, those of the stream that have been processed, those of the read
that are left, and the decoder. -/
structure Point where
  responseBytes : Nat
  seen : Bytes
  left : Bytes
  decoder : Decoder

/-- Decoding `reads` comes to a point, with the reads and the reading of the clock that are next there. -/
inductive Reaches (fromStr : String → Option Json) (limits : Limits) (clock : Nat → Nat)
    (reads : List (Except ReadError Bytes)) : List (Except ReadError Bytes) → Nat → Point → Prop
  | start : Reaches fromStr limits clock reads reads 0 ⟨0, [], [], .initial⟩
  | read {rest n responseBytes seen d chunk counted}
      (h : Reaches fromStr limits clock reads (.ok chunk :: rest) n ⟨responseBytes, seen, [], d⟩)
      (hbefore : clock n < limits.totalBudget) (hafter : clock (n + 1) < limits.totalBudget) (hne : chunk ≠ [])
      (hcounted : within limits.responseBytes (checkedAdd responseBytes chunk.length) = .ok counted) :
      Reaches fromStr limits clock reads rest (n + 2) ⟨counted, seen, chunk, d⟩
  | byte {rest n n' responseBytes seen d d' byte left}
      (h : Reaches fromStr limits clock reads rest n ⟨responseBytes, seen, byte :: left, d⟩)
      (hbyte : (processChunk fromStr limits clock [byte] d).run n = .ok ((none, d'), n')) :
      Reaches fromStr limits clock reads rest n' ⟨responseBytes, seen ++ [byte], left, d'⟩

/-- What decoding still does from a point. -/
def Point.resume (fromStr : String → Option Json) (limits : Limits) (clock : Nat → Nat) (p : Point)
    (reads : List (Except ReadError Bytes)) : Clocked DecodeError String := do
  match ← processChunk fromStr limits clock p.left p.decoder with
  | (some text, _) => return text
  | (none, d) => decodeFrom fromStr limits clock reads p.responseBytes d

/-- **The points are those decoding passes**: what is left to do at one is what is left of it. -/
theorem Reaches.resume {reads rest : List (Except ReadError Bytes)} {n : Nat} {p : Point}
    (h : Reaches fromStr limits clock reads rest n p) :
    (decodeFrom fromStr limits clock reads 0 .initial).run 0 = (p.resume fromStr limits clock rest).run n := by
  induction h with
  | start => rfl
  | @read rest n responseBytes seen d chunk counted _ hbefore hafter hne hcounted ih =>
    have hchunk : (Except.ok chunk : Except ReadError Bytes).mapError mapReadError = .ok chunk := rfl
    have hnonempty : rejectIf chunk.isEmpty DecodeError.invalid = .ok ⟨⟩ := by
      rw [List.isEmpty_eq_false_iff.mpr hne, rejectIf_false]
    rw [ih]
    show (decodeFrom fromStr limits clock (.ok chunk :: rest) responseBytes d).run n = _
    unfold decodeFrom
    rw [checkBudget, run_deadline_bind hbefore, run_lift_ok_bind hchunk, run_deadline_bind hafter, run_lift_ok_bind hnonempty,
      run_lift_ok_bind hcounted]
    rfl
  | @byte rest n n' responseBytes seen d d' byte left _ hbyte ih =>
    rw [ih]
    unfold Point.resume
    dsimp only
    rw [StateT.run_bind, processChunk_byte hbyte]
    rfl

/-! ## The counts -/

/-- What is kept is within what has been counted, and that within its limit. -/
structure Decoder.Counted (limits : Limits) (d : Decoder) : Prop where
  event : d.eventBytes + d.pending.length ≤ limits.eventBytes.toNat
  data : d.eventData.utf8ByteSize ≤ d.eventBytes
  texts : d.state.Bounded limits

theorem Decoder.Counted.initial : Decoder.initial.Counted limits where
  event := Nat.zero_le _
  data := Nat.zero_le _
  texts := .initial

/-- An event that has ended has left nothing. -/
theorem closeEvent_reset {x : Option String} (h : closeEvent fromStr limits d = .ok (x, d')) :
    d'.eventBytes = 0 ∧ d'.eventData = "" := by
  unfold closeEvent at h
  by_cases hempty : d.eventData.isEmpty = true
  · rw [if_pos hempty] at h
    cases h
    exact ⟨rfl, rfl⟩
  · rw [if_neg hempty] at h
    obtain ⟨⟨outcome, state⟩, -, h⟩ := bind_ok_iff.mp h
    cases outcome <;> cases h <;> exact ⟨rfl, rfl⟩

theorem endLine_counted {line : Bytes} {x : Option String} (hd : d.Counted limits) (hpending : d.pending = [])
    (h : endLine fromStr limits line d = .ok (x, d')) : d'.Counted limits := by
  have hnone := (endLine_ok h).1
  rw [endLine_eq] at h
  split at h
  · rename_i hfits
    split at h
    · cases h
    · rename_i text htext
      split at h
      · obtain ⟨hbytes, hdata⟩ := closeEvent_reset h
        refine ⟨?_, ?_, (closeEvent_bounded (d := { d with eventBytes := _ }) hd.texts h).1⟩
        · rw [hnone, hpending, hbytes]
          exact Nat.zero_le _
        · rw [hbytes, hdata]
          exact Nat.le_refl 0
      · have hlength : (stripCr line).length = text.utf8ByteSize := by
          rw [ofUtf8?_eq_some.mp htext, utf8_length]
        have hpaid := hd.data
        have hroom : d.eventData.utf8ByteSize + (text.utf8ByteSize + 1) ≤ d.eventBytes + ((stripCr line).length + 1) := by
          omega
        rw [addField_eq (d := { d with eventBytes := d.eventBytes + ((stripCr line).length + 1) }) hroom hfits] at h
        cases h
        refine ⟨?_, joinData_size hroom, hd.texts⟩
        show d.eventBytes + ((stripCr line).length + 1) + d.pending.length ≤ limits.eventBytes.toNat
        rw [hpending, List.length_nil]
        omega
  · cases h

/-- **Every byte keeps the counts.** -/
theorem feed_counted {bytes : Bytes} {x : Option String} (hd : d.Counted limits)
    (h : feed fromStr limits bytes d = .ok (x, d')) : d'.Counted limits := by
  induction bytes generalizing d with
  | nil =>
    cases h
    exact hd
  | cons byte bytes ih =>
    have hevent := hd.event
    by_cases hlf : byte = lf
    · subst hlf
      rw [feed_lf] at h
      obtain ⟨⟨y, d₁⟩, hline, h⟩ := bind_ok_iff.mp h
      have hd₀ : ({ d with pending := [] } : Decoder).Counted limits := by
        refine ⟨?_, hd.data, hd.texts⟩
        show d.eventBytes + 0 ≤ limits.eventBytes.toNat
        omega
      have hd₁ : d₁.Counted limits := endLine_counted hd₀ rfl hline
      cases y with
      | none => exact ih hd₁ h
      | some text =>
        cases h
        exact hd₁
    · rw [feed_byte hlf] at h
      split at h
      · rename_i hfits
        refine ih (d := { d with pending := d.pending ++ [byte] }) ⟨?_, hd.data, hd.texts⟩ h
        show d.eventBytes + (d.pending ++ [byte]).length ≤ limits.eventBytes.toNat
        rw [List.length_append]
        exact hfits
      · cases h

/-- What holds of the counters at a point. -/
structure Point.Counted (limits : Limits) (p : Point) : Prop where
  decoder : p.decoder.Counted limits
  response : p.responseBytes ≤ limits.responseBytes.toNat
  received : p.decoder.pending.length + p.left.length ≤ p.responseBytes

theorem feed_singleton_pending {byte : UInt8} {x : Option String} (h : feed fromStr limits [byte] d = .ok (x, d')) :
    d'.pending.length ≤ d.pending.length + 1 := by
  by_cases hlf : byte = lf
  · subst hlf
    rw [feed_lf] at h
    obtain ⟨⟨_ | text, d₁⟩, hline, h⟩ := bind_ok_iff.mp h
    · cases h
      rw [(endLine_ok hline).1]
      exact Nat.zero_le _
    · cases h
      rw [(endLine_ok hline).1]
      exact Nat.zero_le _
  · rw [feed_byte hlf] at h
    split at h
    · cases h
      show (d.pending ++ [byte]).length ≤ d.pending.length + 1
      simp
    · cases h

/-- **The counts hold at every point.** -/
theorem Reaches.counted {reads rest : List (Except ReadError Bytes)} {n : Nat} {p : Point}
    (h : Reaches fromStr limits clock reads rest n p) : p.Counted limits := by
  induction h with
  | start => exact ⟨.initial, Nat.zero_le _, Nat.zero_le _⟩
  | @read rest n responseBytes seen d chunk counted _ _ _ _ hcounted ih =>
    rw [within_checkedAdd] at hcounted
    split at hcounted
    · rename_i hfits
      cases hcounted
      have hreceived : d.pending.length + 0 ≤ responseBytes := ih.received
      refine ⟨ih.decoder, hfits, ?_⟩
      show d.pending.length + chunk.length ≤ responseBytes + chunk.length
      omega
    · cases hcounted
  | @byte rest n n' responseBytes seen d d' byte left _ hbyte ih =>
    have hfeed := processChunk_ensures [byte] d n _ n' hbyte
    have hpending := feed_singleton_pending hfeed
    have hreceived : d.pending.length + (left.length + 1) ≤ responseBytes := ih.received
    refine ⟨feed_counted ih.decoder hfeed, ih.response, ?_⟩
    show d'.pending.length + left.length ≤ responseBytes
    omega

/-! ## At the end of a line -/

/-- The sums that are not checked are machine words, and the check of the data passes. -/
structure Decoder.LineFits (limits : Limits) (d : Decoder) : Prop where
  length : (stripCr d.pending).length + 1 < UInt64.size
  value : ∀ text ∈ ofUtf8? (stripCr d.pending), ∀ value ∈ dataValue text, value.utf8ByteSize + 1 < UInt64.size
  field : d.eventBytes + ((stripCr d.pending).length + 1) ≤ limits.eventBytes.toNat →
    ∀ text ∈ ofUtf8? (stripCr d.pending), ∃ d',
      addField limits text { d with pending := [], eventBytes := d.eventBytes + ((stripCr d.pending).length + 1) } = .ok d'

theorem stripCr_length_le (line : Bytes) : (stripCr line).length ≤ line.length := by
  unfold stripCr
  split
  · rw [List.length_dropLast]
    omega
  · exact Nat.le_refl _

theorem Point.Counted.lineFits {p : Point} (h : p.Counted limits) (hleft : p.left ≠ []) : p.decoder.LineFits limits := by
  have hreceived := h.received
  have hresponse := h.response
  have hpaid := h.decoder.data
  have hword := limits.responseBytes.toNat_lt_size
  have hstrip := stripCr_length_le p.decoder.pending
  have hsome : 0 < p.left.length := List.length_pos_iff.mpr hleft
  have hlength : (stripCr p.decoder.pending).length + 1 < UInt64.size := by omega
  have htext : ∀ text ∈ ofUtf8? (stripCr p.decoder.pending), (stripCr p.decoder.pending).length = text.utf8ByteSize := by
    intro text ht
    rw [ofUtf8?_eq_some.mp ht, utf8_length]
  refine ⟨hlength, ?_, ?_⟩
  · intro text ht value hvalue
    rw [dataValue_eq] at hvalue
    have hsize := lineData_size hvalue
    have hline := htext text ht
    omega
  · intro hfits text ht
    have hline := htext text ht
    have hroom : p.decoder.eventData.utf8ByteSize + (text.utf8ByteSize + 1) ≤
        p.decoder.eventBytes + ((stripCr p.decoder.pending).length + 1) := by
      omega
    exact ⟨_, addField_eq (d := { p.decoder with
      pending := [], eventBytes := p.decoder.eventBytes + ((stripCr p.decoder.pending).length + 1) }) hroom hfits⟩

/-! ## The answer -/

theorem answer_ne_empty {state : TextState} {text : String} (h : state.answer = .ok text) : text ≠ "" := by
  simp only [TextState.answer, bind_ok_iff, okOr_ok_iff, rejectIf_ok_iff, pure_ok_iff] at h
  obtain ⟨text', -, -, hne, rfl⟩ := h
  simpa using hne

theorem dispatch_answer {data : String} {state state' : TextState} {text : String}
    (h : dispatch fromStr limits data state = .ok (.completed text, state')) : state.answer = .ok text := by
  simp only [dispatch, bind_ok_iff, okOr_ok_iff] at h
  obtain ⟨event, -, name, -, h⟩ := h
  cases htype : EventType.ofName name with
  | completed =>
    simp only [htype, bind_ok_iff, pure_ok_iff] at h
    obtain ⟨answer, hanswer, h⟩ := h
    cases h
    exact hanswer
  | outputItemDone =>
    simp only [htype, bind_ok_iff] at h
    obtain ⟨item, -, h⟩ := h
    cases item <;> cases h
  | outputTextDelta | outputTextDone =>
    simp only [htype, bind_ok_iff] at h
    obtain ⟨_, -, _, -, h⟩ := h
    cases h
  | failed | other =>
    rw [htype] at h
    cases h

theorem feed_answer {bytes : Bytes} {text : String} (h : feed fromStr limits bytes d = .ok (some text, d')) : text ≠ "" := by
  obtain ⟨front, rest, d₀, -, -, hend⟩ := feed_completes h
  obtain ⟨-, -, hdispatch⟩ := (endLine_ok hend).2 text rfl
  exact answer_ne_empty (dispatch_answer hdispatch)

theorem decodeFrom_answer (reads : List (Except ReadError Bytes)) (responseBytes : Nat) (d : Decoder) :
    Ensures (fun text : String => text ≠ "") (decodeFrom fromStr limits clock reads responseBytes d) := by
  induction reads generalizing responseBytes d with
  | nil => exact ensures_deadline_bind (ensures_deadline_bind (ensures_throw _))
  | cons read reads ih =>
    unfold decodeFrom
    refine ensures_deadline_bind (ensures_lift_bind _ fun chunk _ => ensures_deadline_bind ?_)
    refine ensures_lift_bind _ fun _ _ => ensures_lift_bind _ fun responseBytes _ => ?_
    refine (processChunk_ensures chunk d).bind fun x hx => ?_
    obtain ⟨_ | text, d'⟩ := x
    · exact ih _ d'
    · exact ensures_pure (feed_answer hx)

theorem decode_size {reads : List (Except ReadError Bytes)} {text : String}
    (h : decode fromStr limits clock reads = .ok text) :
    1 ≤ text.utf8ByteSize ∧ text.utf8ByteSize ≤ limits.textBytes.toNat := by
  have hne : text ≠ "" := (decodeFrom_answer reads 0 .initial).begun h
  have hsize : text.utf8ByteSize ≠ 0 := fun hzero => hne (String.utf8ByteSize_eq_zero_iff.mp hzero)
  exact ⟨Nat.pos_of_ne_zero hsize, decode_bounded h⟩

/-! ## The size of an event -/

/-- What the lines of an event come to with one more byte, the line that goes on or ends with it included. -/
def sizeWith (ls : List Bytes) (line : Bytes) (byte : UInt8) : Nat :=
  eventSize ls + ((if byte = lf then withoutCr line else line).length + 1)

/-- What comes before a byte of an event is no more than the event. -/
theorem sizeWith_le {event ls : List Bytes} {line rest : Bytes} {byte : UInt8} (hevent : ∀ l ∈ event, lf ∉ l)
    (hls : ∀ l ∈ ls, lf ∉ l) (hline : lf ∉ line)
    (h : terminated lf event = terminated lf ls ++ (line ++ byte :: rest)) : sizeWith ls line byte ≤ eventSize event := by
  induction ls generalizing event with
  | nil =>
    cases event with
    | nil => simp at h
    | cons l event =>
      rw [terminated_cons, terminated_nil, List.nil_append] at h
      have hl := hevent l List.mem_cons_self
      rw [eventSize_cons, sizeWith, eventSize_nil]
      by_cases hbyte : byte = lf
      · subst hbyte
        obtain ⟨rfl, -⟩ := append_cons_inj hl hline h
        rw [if_pos rfl, withoutCr_eq]
        omega
      · have hfront : lf ∉ line ++ [byte] := by simp [hline, Ne.symm hbyte]
        have hlength := length_le_of_append hfront ((List.append_cons ..).symm.trans h.symm)
        rw [List.length_append, List.length_singleton] at hlength
        have hstrip := length_le_stripCr l
        rw [if_neg hbyte]
        omega
  | cons l' ls ih =>
    cases event with
    | nil => simp at h
    | cons l event =>
      rw [terminated_cons, terminated_cons, List.append_assoc, List.cons_append] at h
      obtain ⟨rfl, hrest⟩ := append_cons_inj (hevent l List.mem_cons_self) (hls l' List.mem_cons_self) h
      have hle := ih (fun l hl => hevent l (List.mem_cons_of_mem _ hl)) (fun l hl => hls l (List.mem_cons_of_mem _ hl)) hrest
      rw [eventSize_cons]
      rw [sizeWith] at hle ⊢
      rw [eventSize_cons]
      omega

/-- **The lines of an event are too large exactly when they are at one of its bytes.** -/
theorem eventSize_passes {event : List Bytes} (hevent : ∀ l ∈ event, lf ∉ l) (limit : Nat) : limit < eventSize event ↔
    ∃ ls line byte rest, terminated lf event = terminated lf ls ++ (line ++ byte :: rest) ∧ (∀ l ∈ ls, lf ∉ l) ∧ lf ∉ line ∧
      limit < sizeWith ls line byte := by
  constructor
  · intro h
    rcases List.eq_nil_or_concat event with rfl | ⟨ls, line, rfl⟩
    · simp at h
    · rw [List.concat_eq_append] at h hevent ⊢
      refine ⟨ls, line, lf, [], by simp, fun l hl => hevent l (by simp [hl]), hevent line (by simp), ?_⟩
      rw [sizeWith, if_pos rfl, withoutCr_eq]
      simpa using h
  · rintro ⟨ls, line, byte, rest, h, hls, hline, hlarge⟩
    exact hlarge.trans_le (sizeWith_le hevent hls hline h)

/-- From a point between two events decoding has come into the next event,
past some lines and some bytes of a line. -/
structure Into (p p' : Point) (ls : List Bytes) (line : Bytes) : Prop where
  pending : p.decoder.pending = []
  eventBytes : p.decoder.eventBytes = 0
  lines : ∀ l ∈ ls, IsEventLine l
  unended : lf ∉ line
  seen : p'.seen = p.seen ++ (terminated lf ls ++ line)

/-- The decoder at a point is what the bytes before it have made of it. -/
theorem Reaches.feed {reads rest : List (Except ReadError Bytes)} {n : Nat} {p : Point}
    (h : Reaches fromStr limits clock reads rest n p) : Sse.feed fromStr limits p.seen .initial = .ok (none, p.decoder) := by
  induction h with
  | start => rfl
  | read _ _ _ _ _ ih => exact ih
  | @byte rest n n' responseBytes seen d d' byte left _ hbyte ih =>
    have hfeed := processChunk_ensures [byte] d n _ n' hbyte
    dsimp only at ih ⊢
    rw [feed_append, ih]
    exact hfeed

section
variable {reads rest rest' : List (Except ReadError Bytes)} {n n' : Nat} {p p' : Point} {ls : List Bytes} {line left : Bytes}
  {byte : UInt8}

/-- In an event its lines have been counted, and there was room for the line that goes on. -/
theorem Reaches.into (h : Reaches fromStr limits clock reads rest n p) (h' : Reaches fromStr limits clock reads rest' n' p')
    (hinto : Into p p' ls line) :
    p'.decoder = p.decoder.inEvent ls line ∧ eventSize ls + line.length ≤ limits.eventBytes.toNat := by
  have hpaid := h.counted.decoder.data
  have hbytes := hinto.eventBytes
  have hdata : p.decoder.eventData = "" := String.utf8ByteSize_eq_zero_iff.mp (by omega)
  have hfeed := h'.feed
  rw [hinto.seen, feed_append, h.feed, ok_bind] at hfeed
  change Sse.feed fromStr limits (terminated lf ls ++ line) p.decoder = _ at hfeed
  rw [feed_event hinto.lines hinto.unended hinto.pending hbytes hdata] at hfeed
  split at hfeed
  · rename_i hfits
    obtain ⟨-, hd⟩ := Prod.mk.inj (Except.ok.inj hfeed)
    exact ⟨hd.symm, hfits⟩
  · cases hfeed

/-! ## The next byte of an event -/

theorem processLine_large (hlarge : limits.eventBytes.toNat < d.eventBytes + ((stripCr line).length + 1)) (n : Nat) :
    (processLine fromStr limits clock line d).run n = .error .limitExceeded := by
  rw [processLine, within_checkedAdd, if_neg (Nat.not_le.mpr hlarge)]
  rfl

/-- The end of a line that is paid for and not blank. -/
theorem processLine_text {text : String} (hfits : d.eventBytes + ((stripCr line).length + 1) ≤ limits.eventBytes.toNat)
    (htext : ofUtf8? (stripCr line) = some text) (hne : text ≠ "")
    (hfield : addField limits text { d with eventBytes := d.eventBytes + ((stripCr line).length + 1) } = .ok d') (n : Nat) :
    (processLine fromStr limits clock line d).run n = .ok ((none, d'), n) := by
  have hblank : ¬text.isEmpty = true := by simpa using hne
  rw [processLine, within_checkedAdd, if_pos hfits, run_lift_ok_bind rfl, htext, run_lift_ok_bind (okOr_some _ _),
    if_neg hblank, run_lift_ok_bind hfield]
  rfl

/-- At a blank line that is paid for the clock is looked at, and the event's data are dispatched. -/
theorem processLine_blank (hfits : d.eventBytes + ((stripCr line).length + 1) ≤ limits.eventBytes.toNat)
    (hblank : stripCr line = []) (n : Nat) : (processLine fromStr limits clock line d).run n =
      (do
        checkBudget limits clock
        closeEvent fromStr limits { d with eventBytes := d.eventBytes + ((stripCr line).length + 1) } :
          Clocked DecodeError (Option String × Decoder)).run n := by
  have hempty : ofUtf8? (stripCr line) = some "" := by
    rw [hblank]
    exact ofUtf8?_utf8 ""
  have hnone : "".isEmpty = true := rfl
  rw [processLine, within_checkedAdd, if_pos hfits, run_lift_ok_bind rfl, hempty, run_lift_ok_bind (okOr_some _ _),
    if_pos hnone]

theorem processChunk_lf (left : Bytes) (d : Decoder) (n : Nat) : (processChunk fromStr limits clock (lf :: left) d).run n =
    (processLine fromStr limits clock d.pending { d with pending := [] }).run n >>= fun x =>
      match x with
      | ((some text, d), n) => .ok ((some text, d), n)
      | ((none, d), n) => (processChunk fromStr limits clock left d).run n := by
  rw [processChunk, if_pos rfl, StateT.run_bind]
  congr 1
  funext x
  obtain ⟨⟨_ | text, d'⟩, n'⟩ := x
  · rfl
  · rfl

theorem processChunk_other (hlf : byte ≠ lf) (left : Bytes) (d : Decoder) (n : Nat) :
    (processChunk fromStr limits clock (byte :: left) d).run n =
      if d.eventBytes + (d.pending.length + 1) ≤ limits.eventBytes.toNat then
        (processChunk fromStr limits clock left { d with pending := d.pending ++ [byte] }).run n
      else .error .limitExceeded := by
  rw [processChunk, if_neg hlf, Word.checkedAdd_bind, within_checkedAdd]
  split
  · rw [run_lift_ok_bind rfl]
  · rfl

/-- What decoding comes to is what it comes to from a point. -/
theorem Reaches.decode (h : Reaches fromStr limits clock reads rest n p) :
    decode fromStr limits clock reads = ((p.resume fromStr limits clock rest).run n).map Prod.fst := by
  rw [Sse.decode, begun, h.resume]

theorem processChunk_refuses (hlarge : limits.eventBytes.toNat < sizeWith ls line byte) (left : Bytes) (n : Nat) :
    (processChunk fromStr limits clock (byte :: left) (d.inEvent ls line)).run n = .error .limitExceeded := by
  rw [sizeWith] at hlarge
  by_cases hlf : byte = lf
  · subst hlf
    rw [if_pos rfl, withoutCr_eq] at hlarge
    rw [processChunk_lf]
    exact congrArg (· >>= _) (processLine_large hlarge n)
  · rw [if_neg hlf] at hlarge
    rw [processChunk_other hlf]
    exact if_neg (Nat.not_le.mpr hlarge)

/-- A byte within a line, or at the end of one that is not blank, is processed if it is paid for. -/
theorem processChunk_proceeds (hdata : (eventData (eventTexts ls)).utf8ByteSize ≤ eventSize ls)
    (hfits : sizeWith ls line byte ≤ limits.eventBytes.toNat) (hline : byte ≠ lf ∨ IsEventLine line) (n : Nat) :
    ∃ d', (processChunk fromStr limits clock [byte] (d.inEvent ls line)).run n = .ok ((none, d'), n) := by
  rw [sizeWith] at hfits
  by_cases hlf : byte = lf
  · subst hlf
    obtain ⟨-, text, htext, hne⟩ := hline.resolve_left (by simp)
    rw [if_pos rfl, withoutCr_eq] at hfits
    rw [withoutCr_eq] at htext
    have hlength : (stripCr line).length = text.utf8ByteSize := by
      rw [ofUtf8?_eq_some.mp htext, utf8_length]
    have hroom : (eventData (eventTexts ls)).utf8ByteSize + (text.utf8ByteSize + 1) ≤
        eventSize ls + ((stripCr line).length + 1) := by
      omega
    obtain ⟨d', hfield⟩ : ∃ d', addField limits text
        { d.inEvent ls [] with eventBytes := eventSize ls + ((stripCr line).length + 1) } = .ok d' :=
      ⟨_, addField_eq hroom hfits⟩
    refine ⟨d', ?_⟩
    rw [processChunk_lf]
    exact congrArg (· >>= _) (processLine_text hfits htext hne hfield n)
  · rw [if_neg hlf] at hfits
    refine ⟨{ d.inEvent ls line with pending := line ++ [byte] }, ?_⟩
    rw [processChunk_other hlf]
    exact if_pos hfits

/-- The end of an event that is paid for. -/
theorem processChunk_closes (hfits : sizeWith ls line lf ≤ limits.eventBytes.toNat) (hblank : withoutCr line = []) (n : Nat) :
    (processChunk fromStr limits clock [lf] (d.inEvent ls line)).run n =
      (do
        checkBudget limits clock
        closeEvent fromStr limits { d.inEvent ls [] with eventBytes := sizeWith ls line lf } :
          Clocked DecodeError (Option String × Decoder)).run n := by
  rw [sizeWith, if_pos rfl, withoutCr_eq] at hfits
  rw [sizeWith, if_pos rfl, withoutCr_eq, processChunk_lf]
  rw [withoutCr_eq] at hblank
  refine (congrArg (· >>= _) (processLine_blank hfits hblank n)).trans ((bind_congr fun x => ?_).trans (bind_pure _))
  obtain ⟨⟨_ | text, d'⟩, n'⟩ := x
  · rfl
  · rfl

end

/-- **The decoder is bounded at every byte.** -/
theorem decode_counts (fromStr : String → Option Json) (limits : Limits) (clock : Nat → Nat)
    (reads : List (Except ReadError Bytes)) :
    (∀ rest n p, Reaches fromStr limits clock reads rest n p →
      p.Counted limits ∧ (p.left.head? = some lf → p.decoder.LineFits limits) ∧
        ∀ byte ∈ p.left.head?, ∀ x d' n',
          (processChunk fromStr limits clock [byte] p.decoder).run n = .ok ((x, d'), n') → d'.Counted limits) ∧
    (∀ text, decode fromStr limits clock reads = .ok text →
      1 ≤ text.utf8ByteSize ∧ text.utf8ByteSize ≤ limits.textBytes.toNat) ∧
    (∀ rest n p rest' n' p' ls line, Reaches fromStr limits clock reads rest n p →
      Reaches fromStr limits clock reads rest' n' p' → Into p p' ls line →
      p'.decoder = p.decoder.inEvent ls line ∧ eventSize ls + line.length ≤ limits.eventBytes.toNat ∧
      ∀ byte left, p'.left = byte :: left →
        (limits.eventBytes.toNat < sizeWith ls line byte → decode fromStr limits clock reads = .error .limitExceeded) ∧
        (sizeWith ls line byte ≤ limits.eventBytes.toNat →
          (byte ≠ lf ∨ IsEventLine line →
            ∃ d', Reaches fromStr limits clock reads rest' n' ⟨p'.responseBytes, p'.seen ++ [byte], left, d'⟩) ∧
          (byte = lf → withoutCr line = [] →
            (processChunk fromStr limits clock [lf] p'.decoder).run n' =
              (do
                checkBudget limits clock
                closeEvent fromStr limits { p.decoder.inEvent ls [] with eventBytes := sizeWith ls line lf } :
                  Clocked DecodeError (Option String × Decoder)).run n'))) ∧
    (∀ event : List Bytes, (∀ l ∈ event, lf ∉ l) → ∀ limit, limit < eventSize event ↔
      ∃ ls line byte rest, terminated lf event = terminated lf ls ++ (line ++ byte :: rest) ∧ (∀ l ∈ ls, lf ∉ l) ∧
        lf ∉ line ∧ limit < sizeWith ls line byte) := by
  refine ⟨?_, fun text => decode_size, ?_, fun event hevent limit => eventSize_passes hevent limit⟩
  · intro rest n p h
    refine ⟨h.counted, fun hnext => h.counted.lineFits ?_, ?_⟩
    · intro hnone
      rw [hnone] at hnext
      cases hnext
    · intro byte _ x d' n' hbyte
      exact feed_counted h.counted.decoder (processChunk_ensures [byte] p.decoder n _ n' hbyte)
  · intro rest n p rest' n' p' ls line h h' hinto
    obtain ⟨hdecoder, hroom⟩ := h.into h' hinto
    have hdata := h'.counted.decoder.data
    rw [hdecoder] at hdata
    refine ⟨hdecoder, hroom, fun byte left hleft => ⟨fun hlarge => ?_, fun hfits => ⟨fun hline => ?_, ?_⟩⟩⟩
    · rw [h'.decode, Point.resume, hleft, hdecoder, StateT.run_bind, processChunk_refuses hlarge]
      rfl
    · obtain ⟨responseBytes, seen, left', d⟩ := p'
      obtain rfl : left' = byte :: left := hleft
      obtain rfl : d = p.decoder.inEvent ls line := hdecoder
      obtain ⟨d', hbyte⟩ := processChunk_proceeds hdata hfits hline n'
      exact ⟨d', h'.byte hbyte⟩
    · rintro rfl hblank
      rw [hdecoder]
      exact processChunk_closes hfits hblank n'

end

/-! ## A comment and a line in four bytes -/

def fourBytes : Limits := { Limits.production with eventBytes := 4 }

/-- `:`, a line of three bytes that does not end, and a failed read. -/
def sampleReads : List (Except ReadError Bytes) := [.ok [0x3a, lf], .ok [0x61, 0x62, 0x63], .error ⟨.other, false⟩]

abbrev SampleReaches := Reaches serdeFromStr fourBytes (fun _ => 0) sampleReads

theorem sample_reaches :
    SampleReaches [.error ⟨.other, false⟩] 4 ⟨5, [0x3a, lf, 0x61, 0x62], [0x63], Decoder.initial.inEvent [[0x3a]] [0x61, 0x62]⟩ := by
  have hread : SampleReaches _ 2 ⟨2, [], [0x3a, lf], .initial⟩ :=
    Reaches.start.read (by decide) (by decide) (by simp) (by decide +kernel)
  have hcomment : SampleReaches _ 2 ⟨2, [0x3a], [lf], Decoder.initial.inEvent [] [0x3a]⟩ := hread.byte (by decide +kernel)
  have hline : SampleReaches _ 2 ⟨2, [0x3a, lf], [], Decoder.initial.inEvent [[0x3a]] []⟩ := hcomment.byte (by decide +kernel)
  have hread' : SampleReaches _ 4 ⟨5, [0x3a, lf], [0x61, 0x62, 0x63], Decoder.initial.inEvent [[0x3a]] []⟩ :=
    hline.read (by decide) (by decide) (by simp) (by decide +kernel)
  have hfirst : SampleReaches _ 4 ⟨5, [0x3a, lf, 0x61], [0x62, 0x63], Decoder.initial.inEvent [[0x3a]] [0x61]⟩ :=
    hread'.byte (by decide +kernel)
  exact hfirst.byte (by decide +kernel)

/-- The third byte of the line is refused, whatever is read after it. A
stream that is answered has an answer within the limit. -/
theorem decode_counts_sample :
    (Decoder.initial.inEvent [[0x3a]] [0x61, 0x62]).Counted fourBytes ∧
    decode serdeFromStr fourBytes (fun _ => 0) sampleReads = .error .limitExceeded ∧
    1 ≤ "é".utf8ByteSize ∧ "é".utf8ByteSize ≤ Limits.production.textBytes.toNat := by
  obtain ⟨hcounted, -, hevent, -⟩ := decode_counts serdeFromStr fourBytes (fun _ => 0) sampleReads
  obtain ⟨-, hsize, -⟩ :=
    decode_counts serdeFromStr .production (fun _ => 0) (Delivery.bytewise sampleStream).results
  have hcomment : IsEventLine [0x3a] := ⟨by decide, ":", ofUtf8?_utf8 ":", by decide⟩
  have hinto : Into ⟨0, [], [], .initial⟩
      ⟨5, [0x3a, lf, 0x61, 0x62], [0x63], Decoder.initial.inEvent [[0x3a]] [0x61, 0x62]⟩ [[0x3a]] [0x61, 0x62] :=
    ⟨rfl, rfl, by simpa using hcomment, by decide, rfl⟩
  obtain ⟨-, -, hbyte⟩ := hevent _ _ _ _ _ _ _ _ .start sample_reaches hinto
  exact ⟨(hcounted _ _ _ sample_reaches).1.decoder, (hbyte 0x63 [] rfl).1 (by decide +kernel), hsize "é" sample_decoded⟩

end AgentHarness.Sse
