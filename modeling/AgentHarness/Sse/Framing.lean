/-
What the end of a line costs: the line without a carriage return at its end,
and one. The carriage return is checked while it is pending, for what the
end of the line is checked for again, so that CR LF and LF are the same
(`decode_crLf`) and an event is read as far as its lines are paid for
(`feed_event`).
-/
import Mathlib.Algebra.GroupWithZero.Nat
import Mathlib.Data.List.Infix
import AgentHarness.Sse.Prefix
import AgentHarness.Sse.Reference

namespace AgentHarness.Sse

open Text Except Lines

section
variable {fromStr : String → Option Json} {limits : Limits} {d : Decoder} {line stream rest : Bytes}

/-! ## LF and CR LF -/

/-- Every LF is a CR LF. -/
def crLf (stream : Bytes) : Bytes := stream.flatMap fun byte => if byte = lf then [cr, lf] else [byte]

theorem crLf_lf (stream : Bytes) : crLf (lf :: stream) = cr :: lf :: crLf stream := by
  simp [crLf]

theorem crLf_byte {byte : UInt8} (hlf : byte ≠ lf) (stream : Bytes) : crLf (byte :: stream) = byte :: crLf stream := by
  simp [crLf, hlf]

theorem length_le_crLf (stream : Bytes) : stream.length ≤ (crLf stream).length := by
  induction stream with
  | nil => exact Nat.le_refl 0
  | cons byte stream ih =>
    by_cases hlf : byte = lf
    · subst hlf
      rw [crLf_lf]
      simp only [List.length_cons]
      omega
    · rw [crLf_byte hlf]
      simp only [List.length_cons]
      omega

theorem stripCr_concat (line : Bytes) : stripCr (line ++ [cr]) = line := by
  simp [stripCr]

theorem stripCr_of_ne (h : line.getLast? ≠ some cr) : stripCr line = line := by
  simp [stripCr, h]

/-- A line, and the same line with a carriage return that is paid for. -/
theorem endLine_concat_cr (h : line.getLast? ≠ some cr) :
    endLine fromStr limits (line ++ [cr]) d = endLine fromStr limits line d := by
  rw [endLine_eq, endLine_eq, stripCr_concat, stripCr_of_ne h]

/-- A line that does not fit is refused whether its carriage return is or its end. -/
theorem endLine_large (h : line.getLast? ≠ some cr) (hlarge : ¬ d.eventBytes + (line.length + 1) ≤ limits.eventBytes.toNat) :
    endLine fromStr limits line d = .error .limitExceeded := by
  rw [endLine_eq, stripCr_of_ne h, if_neg hlarge]

/-- The streams side by side: after as many lines both decoders are the same. -/
theorem feed_crLf (hstream : ¬ [cr, lf] <:+: stream) (hpending : d.pending.getLast? = some cr → stream.head? ≠ some lf) :
    feed fromStr limits (crLf stream) d = feed fromStr limits stream d := by
  induction stream generalizing d with
  | nil => rfl
  | cons byte stream ih =>
    have htail : ¬ [cr, lf] <:+: stream := fun h => hstream (List.infix_cons h)
    by_cases hlf : byte = lf
    · subst hlf
      have hlast : d.pending.getLast? ≠ some cr := fun h => hpending h rfl
      have hne : cr ≠ lf := by decide
      rw [crLf_lf, feed_byte hne, feed_lf, feed_lf]
      by_cases hfits : d.eventBytes + (d.pending.length + 1) ≤ limits.eventBytes.toNat
      · rw [if_pos hfits, endLine_concat_cr hlast]
        cases hend : endLine fromStr limits d.pending { d with pending := [] } with
        | error e => rfl
        | ok x =>
          obtain ⟨_ | text, d'⟩ := x
          · refine ih htail ?_
            have hnone : d'.pending = [] := (endLine_ok hend).1
            intro hcr
            rw [hnone] at hcr
            cases hcr
          · rfl
      · have hlarge : endLine fromStr limits d.pending { d with pending := [] } = .error .limitExceeded :=
          endLine_large hlast hfits
        rw [if_neg hfits, hlarge]
        rfl
    · rw [crLf_byte hlf, feed_byte hlf, feed_byte hlf]
      split
      · refine ih htail ?_
        intro hcr hnext
        have hbyte : byte = cr := by simpa using hcr
        obtain ⟨rest, rfl⟩ := List.head?_eq_some_iff.mp hnext
        exact hstream ⟨[], rest, by simp [hbyte]⟩
      · rfl

/-- **LF and CR LF are the same**, limits included. -/
theorem decode_crLf {clock clock' : Nat → Nat} (hstream : ¬ [cr, lf] <:+: stream)
    (hlen : (crLf stream).length ≤ limits.responseBytes.toNat) (htime : ∀ n, clock n < limits.totalBudget)
    (htime' : ∀ n, clock' n < limits.totalBudget) (delivery : Delivery stream) (delivery' : Delivery (crLf stream)) :
    decode fromStr limits clock delivery.results = decode fromStr limits clock' delivery'.results := by
  have hshort : stream.length ≤ limits.responseBytes.toNat := by
    have hle := length_le_crLf stream
    omega
  rw [delivery.decode_eq htime hshort, delivery'.decode_eq htime' hlen, feed_crLf hstream]
  intro hcr
  cases hcr

/-- A delta and the end, each line ended by an LF. -/
def sampleLines : Bytes :=
  utf8 ("data: \x7b\"type\":\"response.output_text.delta\",\"delta\":\"é\"\x7d\n\n" ++
    "data: \x7b\"type\":\"response.completed\"\x7d\n\n")

theorem decode_crLf_sample :
    decode serdeFromStr .production (fun _ => 0) (Delivery.bytewise (crLf sampleLines)).results = .ok "é" := by
  have hplain : decode serdeFromStr .production (fun _ => 0) (Delivery.bytewise sampleLines).results = .ok "é" := by
    decide +kernel
  rw [← decode_crLf (by decide +kernel) (by decide +kernel) sample_inTime sample_inTime (Delivery.bytewise sampleLines)]
  exact hplain

/-! ## What an event costs -/

/-- The lines without their ends, and one for each of these. -/
def eventSize (event : List Bytes) : Nat := (event.map fun line => (withoutCr line).length + 1).sum

/-- The texts of some lines. -/
def eventTexts (event : List Bytes) : List String := event.filterMap fun line => ofUtf8? (withoutCr line)

/-- A line of an event, valid and not the blank one that ends it. -/
def IsEventLine (line : Bytes) : Prop := lf ∉ line ∧ ∃ text, ofUtf8? (withoutCr line) = some text ∧ text ≠ ""

@[simp] theorem eventSize_nil : eventSize [] = 0 := rfl

@[simp] theorem eventSize_cons (line : Bytes) (event : List Bytes) :
    eventSize (line :: event) = (stripCr line).length + 1 + eventSize event := by
  simp [eventSize, withoutCr_eq]

@[simp] theorem eventSize_append (event event' : List Bytes) :
    eventSize (event ++ event') = eventSize event + eventSize event' := by
  simp [eventSize]

theorem lineData_size {line value : String} (h : lineData line = some value) :
    value.utf8ByteSize + 5 ≤ line.utf8ByteSize := by
  unfold lineData at h
  split at h
  · rename_i chars hchars
    obtain rfl : String.ofList chars = value := Option.some.inj h
    have hline : line = "data: " ++ String.ofList chars := by
      rw [← String.toList_inj]
      simp [hchars]
    have hprefix : "data: ".utf8ByteSize = 6 := rfl
    rw [hline, String.utf8ByteSize_append, hprefix]
    omega
  · rename_i chars _ hchars
    obtain rfl : String.ofList chars = value := Option.some.inj h
    have hline : line = "data:" ++ String.ofList chars := by
      rw [← String.toList_inj]
      simp [hchars]
    have hprefix : "data:".utf8ByteSize = 5 := rfl
    rw [hline, String.utf8ByteSize_append, hprefix]
    omega
  · cases h

/-- The data of the event with a line that has been paid for is within what has been. -/
theorem joinData_size {data line : String} {paid : Nat} (hdata : data.utf8ByteSize + (line.utf8ByteSize + 1) ≤ paid) :
    (((lineData line).map (joinData data)).getD data).utf8ByteSize ≤ paid := by
  cases hvalue : lineData line with
  | none =>
    show data.utf8ByteSize ≤ paid
    omega
  | some value =>
    have hsize := lineData_size hvalue
    show (joinData data value).utf8ByteSize ≤ paid
    unfold joinData
    split
    · omega
    · have hnewline : "\n".utf8ByteSize = 1 := rfl
      rw [String.utf8ByteSize_append, String.utf8ByteSize_append, hnewline]
      omega

/-- **The limit of the data is never what fails**: the line has been paid for. -/
theorem addField_eq {line : String} (hdata : d.eventData.utf8ByteSize + (line.utf8ByteSize + 1) ≤ d.eventBytes)
    (hlimit : d.eventBytes ≤ limits.eventBytes.toNat) : addField limits line d =
      .ok { d with eventData := ((lineData line).map (joinData d.eventData)).getD d.eventData } := by
  unfold addField
  rw [dataValue_eq]
  cases hvalue : lineData line with
  | none => rfl
  | some value =>
    have hsize := lineData_size hvalue
    have hfits : d.eventData.utf8ByteSize + (value.utf8ByteSize + if d.eventData.isEmpty then 0 else 1) ≤
        limits.eventBytes.toNat := by
      split <;> omega
    dsimp only
    rw [within_checkedAdd, if_pos hfits]
    rfl

/-- The lines of an event that has not ended are read as long as they are paid for. -/
theorem feed_lines {ls : List Bytes} {event : List String} (hls : ∀ l ∈ ls, IsEventLine l)
    (hpending : d.pending = []) (hdata : d.eventData = eventData event) (hpaid : d.eventData.utf8ByteSize ≤ d.eventBytes)
    (hlimit : d.eventBytes ≤ limits.eventBytes.toNat) :
    feed fromStr limits (terminated lf ls ++ rest) d =
      if d.eventBytes + eventSize ls ≤ limits.eventBytes.toNat then
        feed fromStr limits rest
          { d with eventBytes := d.eventBytes + eventSize ls, eventData := eventData (event ++ eventTexts ls) }
      else .error .limitExceeded := by
  induction ls generalizing d event with
  | nil =>
    have hd : { d with eventBytes := d.eventBytes + eventSize [], eventData := eventData (event ++ eventTexts []) } = d := by
      rw [eventTexts, List.filterMap_nil, List.append_nil, ← hdata]
      rfl
    rw [hd]
    exact (if_pos hlimit).symm
  | cons line ls ih =>
    obtain ⟨⟨hlf, text, htext, hne⟩, hls⟩ := List.forall_mem_cons.mp hls
    have htexts : eventTexts (line :: ls) = text :: eventTexts ls := by simp [eventTexts, htext]
    rw [withoutCr_eq] at htext
    have hlength : (stripCr line).length = text.utf8ByteSize := by
      rw [ofUtf8?_eq_some.mp htext, utf8_length]
    rw [terminated_cons, List.append_assoc, List.cons_append, feed_line hlf, hpending, List.nil_append, endLine_eq, htext,
      eventSize_cons, htexts]
    by_cases hfits : d.eventBytes + ((stripCr line).length + 1) ≤ limits.eventBytes.toNat
    · have hblank : ¬text.isEmpty = true := by simpa using hne
      have hroom : d.eventData.utf8ByteSize + (text.utf8ByteSize + 1) ≤ d.eventBytes + ((stripCr line).length + 1) := by
        omega
      have hfield := addField_eq (d := { d with pending := [], eventBytes := d.eventBytes + ((stripCr line).length + 1) })
        hroom hfits
      have hjoin : ((lineData text).map (joinData d.eventData)).getD d.eventData = eventData (event ++ [text]) := by
        rw [eventData_append, hdata]
        cases lineData text <;> rfl
      have hnext : (eventData (event ++ [text])).utf8ByteSize ≤ d.eventBytes + ((stripCr line).length + 1) :=
        hjoin ▸ joinData_size hroom
      rw [if_pos hfits]
      dsimp only at hfield ⊢
      rw [if_neg hblank, hfield, hjoin]
      refine (ih (d := { d with
        pending := [], eventData := eventData (event ++ [text]), eventBytes := d.eventBytes + ((stripCr line).length + 1) })
        hls rfl rfl hnext hfits).trans ?_
      simp only [Nat.add_assoc, List.append_assoc, List.singleton_append]
    · have hlarge : ¬ d.eventBytes + ((stripCr line).length + 1 + eventSize ls) ≤ limits.eventBytes.toNat := by omega
      rw [if_neg hfits, if_neg hlarge]
      rfl

/-- The bytes of a line that has not ended are kept as long as there is room for them. -/
theorem feed_unended (hlf : lf ∉ line) (hroom : d.eventBytes + d.pending.length ≤ limits.eventBytes.toNat) :
    feed fromStr limits line d =
      if d.eventBytes + (d.pending.length + line.length) ≤ limits.eventBytes.toNat then
        .ok (none, { d with pending := d.pending ++ line })
      else .error .limitExceeded := by
  induction line generalizing d with
  | nil =>
    rw [List.append_nil, List.length_nil, Nat.add_zero, if_pos hroom]
    rfl
  | cons byte line ih =>
    rw [List.mem_cons, not_or] at hlf
    rw [feed_byte (Ne.symm hlf.1), List.length_cons]
    by_cases hfits : d.eventBytes + (d.pending.length + 1) ≤ limits.eventBytes.toNat
    · have hroom' : d.eventBytes + (d.pending ++ [byte]).length ≤ limits.eventBytes.toNat := by
        rw [List.length_append]
        exact hfits
      rw [if_pos hfits, ih (d := { d with pending := d.pending ++ [byte] }) hlf.2 hroom', List.append_assoc,
        List.singleton_append, List.length_append, List.length_singleton]
      simp only [Nat.add_assoc, Nat.add_comm 1]
    · have hlarge : ¬ d.eventBytes + (d.pending.length + (line.length + 1)) ≤ limits.eventBytes.toNat := by omega
      rw [if_neg hfits, if_neg hlarge]

/-- The decoder in an event, after some lines and some bytes of the next. -/
def Decoder.inEvent (d : Decoder) (ls : List Bytes) (line : Bytes) : Decoder :=
  { d with pending := line, eventBytes := eventSize ls, eventData := Sse.eventData (eventTexts ls) }

@[simp] theorem Decoder.inEvent_pending (ls : List Bytes) : (d.inEvent ls line).pending = line := rfl
@[simp] theorem Decoder.inEvent_eventBytes (ls : List Bytes) : (d.inEvent ls line).eventBytes = eventSize ls := rfl
@[simp] theorem Decoder.inEvent_eventData (ls : List Bytes) :
    (d.inEvent ls line).eventData = Sse.eventData (eventTexts ls) := rfl

/-- **An event is read as far as it is paid for**: its lines, each without a
carriage return at its end and with one for the end, and the bytes of the
line that has not ended. -/
theorem feed_event {ls : List Bytes} (hls : ∀ l ∈ ls, IsEventLine l) (hlf : lf ∉ line) (hpending : d.pending = [])
    (hbytes : d.eventBytes = 0) (hdata : d.eventData = "") :
    feed fromStr limits (terminated lf ls ++ line) d =
      if eventSize ls + line.length ≤ limits.eventBytes.toNat then
        .ok (none, d.inEvent ls line)
      else .error .limitExceeded := by
  have hpaid : d.eventData.utf8ByteSize ≤ d.eventBytes := by simp [hdata]
  have hnone : d.eventData = eventData [] := hdata
  rw [feed_lines hls hpending hnone hpaid (by omega), hbytes, Nat.zero_add, List.nil_append]
  by_cases hfits : eventSize ls ≤ limits.eventBytes.toNat
  · have hroom : eventSize ls + d.pending.length ≤ limits.eventBytes.toNat := by
      rw [hpending]
      exact hfits
    rw [if_pos hfits, feed_unended hlf hroom]
    simp only [hpending, List.length_nil, Nat.zero_add, List.nil_append, Decoder.inEvent]
  · rw [if_neg hfits, if_neg (by omega)]

end

end AgentHarness.Sse
