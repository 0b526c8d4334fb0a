/-
The decoder while its budget lasts: what it makes of a stream byte by byte,
and that this is all there is to it, wherever the reads end.
-/
import AgentHarness.Lib.Json.Parse
import AgentHarness.Sse.Decode

namespace AgentHarness.Sse

open Text Except Clock

section
variable (fromStr : String → Option Json) (limits : Limits)

/-! ## Without the clock -/

/-- The end of a line, in time. -/
def endLine (line : Bytes) (d : Decoder) : Except DecodeError (Option String × Decoder) := do
  let line := stripCr line
  let eventBytes ← within limits.eventBytes (checkedAdd d.eventBytes (line.length + 1))
  let line ← okOr (ofUtf8? line) .invalid
  if line.isEmpty then closeEvent fromStr limits { d with eventBytes }
  else return (none, ← addField limits line { d with eventBytes })

/-- Go on while the answer is not there. -/
def unlessDone (x : Option String × Decoder) (f : Decoder → Except DecodeError (Option String × Decoder)) :
    Except DecodeError (Option String × Decoder) :=
  match x with
  | (some text, d) => .ok (some text, d)
  | (none, d) => f d

/-- Some bytes of the stream, in time: as far as the answer, if it is in them. -/
def feed : Bytes → Decoder → Except DecodeError (Option String × Decoder)
  | [], d => .ok (none, d)
  | byte :: bytes, d =>
    if byte = lf then do unlessDone (← endLine fromStr limits d.pending { d with pending := [] }) (feed bytes)
    else do
      let _ ← within limits.eventBytes (checkedAdd d.eventBytes (d.pending.length + 1))
      feed bytes { d with pending := d.pending ++ [byte] }

/-- At the end of the stream. -/
def finish (x : Option String × Decoder) : Except DecodeError String := okOr x.1 .invalid

/-- The reads of a stream, in time. -/
def receive : List Bytes → Nat → Decoder → Except DecodeError String
  | [], _, _ => .error .invalid
  | chunk :: chunks, responseBytes, d => do
    let responseBytes ← within limits.responseBytes (checkedAdd responseBytes chunk.length)
    match ← feed fromStr limits chunk d with
    | (some text, _) => return text
    | (none, d) => receive chunks responseBytes d

end

section
variable {fromStr : String → Option Json} {limits : Limits} {clock : Nat → Nat}

theorem processLine_comesTo (htime : ∀ n, clock n < limits.totalBudget) (line : Bytes) (d : Decoder) :
    ComesTo (processLine fromStr limits clock line d) (endLine fromStr limits line d) := by
  refine comesTo_lift_bind _ fun eventBytes _ => comesTo_lift_bind _ fun text _ => ?_
  by_cases hblank : text.isEmpty = true
  · simp only [hblank, if_true]
    exact comesTo_deadline_bind htime (comesTo_lift _)
  · simp only [hblank]
    exact comesTo_lift_bind _ fun d _ => comesTo_pure _

theorem processChunk_comesTo (htime : ∀ n, clock n < limits.totalBudget) (chunk : Bytes) (d : Decoder) :
    ComesTo (processChunk fromStr limits clock chunk d) (feed fromStr limits chunk d) := by
  induction chunk generalizing d with
  | nil => exact comesTo_pure _
  | cons byte chunk ih =>
    unfold processChunk feed
    by_cases hlf : byte = lf
    · simp only [hlf, if_true]
      refine (processLine_comesTo htime d.pending _).bind fun x _ => ?_
      obtain ⟨_ | text, d'⟩ := x
      · exact ih d'
      · exact comesTo_pure _
    · simp only [hlf, if_false]
      rw [Word.checkedAdd_bind]
      exact comesTo_lift_bind _ fun _ _ => ih _

theorem decodeFrom_comesTo (htime : ∀ n, clock n < limits.totalBudget) {chunks : List Bytes}
    (hchunks : ∀ chunk ∈ chunks, chunk ≠ []) (responseBytes : Nat) (d : Decoder) :
    ComesTo (decodeFrom fromStr limits clock (chunks.map .ok) responseBytes d)
      (receive fromStr limits chunks responseBytes d) := by
  induction chunks generalizing responseBytes d with
  | nil => exact comesTo_deadline_bind htime (comesTo_deadline_bind htime (comesTo_throw _))
  | cons chunk chunks ih =>
    have hne : chunk.isEmpty = false := List.isEmpty_eq_false_iff.mpr (hchunks chunk List.mem_cons_self)
    rw [List.map_cons]
    unfold decodeFrom receive
    refine comesTo_deadline_bind htime (comesTo_ok_bind rfl (comesTo_deadline_bind htime ?_))
    refine comesTo_ok_bind (by rw [hne, rejectIf_false]) (comesTo_lift_bind _ fun responseBytes _ => ?_)
    refine (processChunk_comesTo htime chunk d).bind fun x _ => ?_
    obtain ⟨_ | text, d'⟩ := x
    · exact ih (fun c hc => hchunks c (List.mem_cons_of_mem chunk hc)) _ _
    · exact comesTo_pure _

/-! ## However the stream is read -/

theorem endLine_eq (line : Bytes) (d : Decoder) : endLine fromStr limits line d =
    if d.eventBytes + ((stripCr line).length + 1) ≤ limits.eventBytes.toNat then
      match ofUtf8? (stripCr line) with
      | none => .error .invalid
      | some text =>
        if text.isEmpty then closeEvent fromStr limits { d with eventBytes := d.eventBytes + ((stripCr line).length + 1) }
        else (addField limits text { d with eventBytes := d.eventBytes + ((stripCr line).length + 1) }).map (none, ·)
    else .error .limitExceeded := by
  unfold endLine
  dsimp only
  rw [within_checkedAdd]
  split
  · cases ofUtf8? (stripCr line) with
    | none => rfl
    | some text =>
      simp only [ok_bind, okOr_some]
      split
      · rfl
      · cases addField limits text { d with eventBytes := d.eventBytes + ((stripCr line).length + 1) } <;> rfl
  · rfl

theorem feed_lf (bytes : Bytes) (d : Decoder) : feed fromStr limits (lf :: bytes) d =
    endLine fromStr limits d.pending { d with pending := [] } >>= (unlessDone · (feed fromStr limits bytes)) := rfl

theorem feed_byte {byte : UInt8} (hlf : byte ≠ lf) (bytes : Bytes) (d : Decoder) : feed fromStr limits (byte :: bytes) d =
    if d.eventBytes + (d.pending.length + 1) ≤ limits.eventBytes.toNat then
      feed fromStr limits bytes { d with pending := d.pending ++ [byte] }
    else .error .limitExceeded := by
  rw [feed, if_neg hlf, within_checkedAdd]
  split <;> rfl

theorem length_le_stripCr (line : Bytes) : line.length ≤ (stripCr line).length + 1 := by
  unfold stripCr
  split
  · rw [List.length_dropLast]
    omega
  · omega

/-- **A line and its end**: what is checked of the line while it is pending is no more than its end is checked for. -/
theorem feed_line {line rest : Bytes} (hlf : lf ∉ line) (d : Decoder) : feed fromStr limits (line ++ lf :: rest) d =
    endLine fromStr limits (d.pending ++ line) { d with pending := [] } >>= (unlessDone · (feed fromStr limits rest)) := by
  induction line generalizing d with
  | nil => rw [List.append_nil, List.nil_append, feed_lf]
  | cons byte line ih =>
    rw [List.mem_cons, not_or] at hlf
    have happend : d.pending ++ byte :: line = d.pending ++ [byte] ++ line := List.append_cons ..
    rw [List.cons_append, feed_byte (Ne.symm hlf.1)]
    split
    · rw [happend]
      exact ih hlf.2 { d with pending := d.pending ++ [byte] }
    · rename_i hlarge
      have hlength := length_le_stripCr (d.pending ++ byte :: line)
      rw [List.length_append, List.length_cons] at hlength
      have hend : ¬ d.eventBytes + ((stripCr (d.pending ++ byte :: line)).length + 1) ≤ limits.eventBytes.toNat := by omega
      rw [endLine_eq, if_neg hend]
      rfl

/-- The bytes after those that did not complete the answer. -/
theorem feed_append (xs ys : Bytes) (d : Decoder) : feed fromStr limits (xs ++ ys) d =
    feed fromStr limits xs d >>= (unlessDone · (feed fromStr limits ys)) := by
  induction xs generalizing d with
  | nil => rfl
  | cons byte xs ih =>
    rw [List.cons_append]
    by_cases hlf : byte = lf
    · subst hlf
      rw [feed_lf, feed_lf]
      cases endLine fromStr limits d.pending { d with pending := [] } with
      | error e => rfl
      | ok x =>
        obtain ⟨_ | text, d'⟩ := x
        · exact ih d'
        · rfl
    · rw [feed_byte hlf, feed_byte hlf, ih]
      split <;> rfl

/-- **Reads that are together within the limit** are the stream they make up. -/
theorem receive_eq {chunks : List Bytes} {responseBytes : Nat}
    (hfits : responseBytes + chunks.flatten.length ≤ limits.responseBytes.toNat) (d : Decoder) :
    receive fromStr limits chunks responseBytes d = feed fromStr limits chunks.flatten d >>= finish := by
  induction chunks generalizing responseBytes d with
  | nil => rfl
  | cons chunk chunks ih =>
    rw [List.flatten_cons, List.length_append] at hfits
    have hchunk : responseBytes + chunk.length ≤ limits.responseBytes.toNat := by omega
    unfold receive
    rw [within_checkedAdd, if_pos hchunk, ok_bind, List.flatten_cons, feed_append]
    cases feed fromStr limits chunk d with
    | error e => rfl
    | ok x =>
      obtain ⟨_ | text, d'⟩ := x
      · have hrest : responseBytes + chunk.length + chunks.flatten.length ≤ limits.responseBytes.toNat := by omega
        exact ih hrest d'
      · rfl

/-- Any reads are, unless they pass the limit. -/
theorem receive_upTo (fromStr : String → Option Json) (limits : Limits) (chunks : List Bytes) (responseBytes : Nat) (d : Decoder) :
    UpTo .limitExceeded (receive fromStr limits chunks responseBytes d) (feed fromStr limits chunks.flatten d >>= finish) := by
  induction chunks generalizing responseBytes d with
  | nil => exact .of_eq rfl
  | cons chunk chunks ih =>
    unfold receive
    rw [within_checkedAdd, List.flatten_cons, feed_append]
    by_cases hchunk : responseBytes + chunk.length ≤ limits.responseBytes.toNat
    · rw [if_pos hchunk, ok_bind]
      cases feed fromStr limits chunk d with
      | error e => exact .of_eq rfl
      | ok x =>
        obtain ⟨_ | text, d'⟩ := x
        · exact ih _ d'
        · exact .of_eq rfl
    · rw [if_neg hchunk]
      exact .inl rfl

end

/-- A stream in reads that each bring something and fit the buffer. -/
structure Delivery (stream : Bytes) where
  reads : List Bytes
  nonempty : ∀ read ∈ reads, read ≠ []
  fits : ∀ read ∈ reads, read.length ≤ bufferBytes
  whole : reads.flatten = stream

namespace Delivery

/-- All of the stream in one read. -/
def atOnce (stream : Bytes) (hne : stream ≠ []) (hfits : stream.length ≤ bufferBytes) : Delivery stream where
  reads := [stream]
  nonempty := fun _ h => List.mem_singleton.mp h ▸ hne
  fits := fun _ h => List.mem_singleton.mp h ▸ hfits
  whole := List.append_nil stream

/-- Each byte in a read of its own. -/
def bytewise (stream : Bytes) : Delivery stream where
  reads := stream.map fun byte => [byte]
  nonempty := by simp
  fits := by simp [bufferBytes]
  whole := by rw [← List.flatMap_def, List.flatMap_singleton']

variable {stream : Bytes}

/-- What the reader returns, none of it an error. -/
def results (delivery : Delivery stream) : List (Except ReadError Bytes) := delivery.reads.map .ok

variable {fromStr : String → Option Json} {limits : Limits} {clock : Nat → Nat} (delivery : Delivery stream)

theorem decode_results (htime : ∀ n, clock n < limits.totalBudget) :
    decode fromStr limits clock delivery.results = receive fromStr limits delivery.reads 0 .initial :=
  (decodeFrom_comesTo htime delivery.nonempty 0 .initial).begun

/-- **A stream within the limit** is decoded byte by byte. -/
theorem decode_eq (htime : ∀ n, clock n < limits.totalBudget) (hlen : stream.length ≤ limits.responseBytes.toNat) :
    decode fromStr limits clock delivery.results = feed fromStr limits stream .initial >>= finish := by
  have hfits : 0 + delivery.reads.flatten.length ≤ limits.responseBytes.toNat := by
    rw [delivery.whole]
    omega
  rw [delivery.decode_results htime, receive_eq hfits, delivery.whole]

theorem decode_upTo (htime : ∀ n, clock n < limits.totalBudget) :
    UpTo .limitExceeded (decode fromStr limits clock delivery.results)
      (feed fromStr limits stream .initial >>= finish) := by
  have h := receive_upTo fromStr limits delivery.reads 0 .initial
  rw [delivery.whole] at h
  exact delivery.decode_results htime ▸ h

end Delivery

/-- **However a stream is cut into reads**, it is decoded to the same text or
fails in the same way. -/
theorem decode_reads {fromStr : String → Option Json} {limits : Limits} {clock clock' : Nat → Nat} {stream : Bytes}
    (hlen : stream.length ≤ limits.responseBytes.toNat) (htime : ∀ n, clock n < limits.totalBudget)
    (htime' : ∀ n, clock' n < limits.totalBudget) (delivery delivery' : Delivery stream) :
    decode fromStr limits clock delivery.results = decode fromStr limits clock' delivery'.results := by
  rw [delivery.decode_eq htime hlen, delivery'.decode_eq htime' hlen]

/-! ## A response in two deliveries -/

/-- A parser for the examples, and for them alone: it rounds a number that is
close to what a double holds, where the library of the program may refuse it. -/
def serdeFromStr (data : String) : Option Json := Json.parse (utf8 data)

/-- A comment, a delta whose data has two lines, and the end. -/
def sampleStream : Bytes :=
  utf8 (": keepalive\r\n\r\ndata: \x7b\"type\":\"response.output_text.delta\",\ndata: \"delta\":\"é\"\x7d\r\n\r\n" ++
    "data: \x7b\"type\":\"response.completed\"\x7d\n\n")

/-- A clock that stands. -/
theorem sample_inTime (n : Nat) : (fun _ : Nat => 0) n < Limits.production.totalBudget := by
  show 0 < Limits.production.totalBudget
  decide

theorem sample_decoded :
    decode serdeFromStr .production (fun _ => 0) (Delivery.bytewise sampleStream).results = .ok "é" := by
  decide +kernel

theorem decode_reads_sample :
    decode serdeFromStr .production (fun _ => 1) (Delivery.atOnce sampleStream (by decide) (by decide +kernel)).results =
      .ok "é" := by
  have htime : ∀ n : Nat, (fun _ : Nat => 1) n < Limits.production.totalBudget := by
    intro n
    show 1 < Limits.production.totalBudget
    decide
  rw [decode_reads (by decide +kernel) htime sample_inTime _ (Delivery.bytewise sampleStream), sample_decoded]

end AgentHarness.Sse
