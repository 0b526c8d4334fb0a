/-
Streams of events of one line each: the decoder goes from one event's data
to the next.
-/
import Mathlib.Data.List.TakeDrop
import Mathlib.Data.List.TakeWhile
import AgentHarness.Sse.Stream

namespace AgentHarness.Sse

open Text Except

theorem splitOnce_eq_some {c : Char} {line field value : String} : splitOnce c line = some (field, value) ↔
    c ∉ field.toList ∧ line.toList = field.toList ++ c :: value.toList := by
  unfold splitOnce
  rw [List.span_eq_takeWhile_dropWhile]
  constructor
  · intro h
    split at h
    · exact nomatch h
    · rename_i front x back hspan
      obtain ⟨hfront, hback⟩ := Prod.mk.inj hspan
      obtain ⟨rfl, rfl⟩ := Prod.mk.inj (Option.some.inj h)
      have hx : x = c := by
        have hhead := List.head?_dropWhile_not (fun y => decide (y ≠ c)) line.toList
        rw [hback] at hhead
        simpa using hhead
      subst hx
      rw [String.toList_ofList, String.toList_ofList, ← hback, ← hfront, List.takeWhile_append_dropWhile]
      refine ⟨fun hmem => ?_, rfl⟩
      simpa using List.mem_takeWhile_imp hmem
  · intro h
    obtain ⟨hc, hline⟩ := h
    have hall : ∀ y ∈ field.toList, decide (y ≠ c) = true := fun y hy => by
      rw [decide_eq_true_eq]
      intro heq
      subst heq
      exact hc hy
    rw [hline, List.takeWhile_append_of_pos hall, List.dropWhile_append_of_pos hall]
    simp

/-! ## One event -/

/-- An event whose data are one line. -/
def dataEvent (data : String) : Bytes := utf8 ("data: " ++ data) ++ [lf, lf]

/-- Data that make one line, and stay as they are. -/
structure OneLine (data : String) : Prop where
  nonempty : data ≠ ""
  noLf : lf ∉ utf8 data
  noCr : (utf8 data).getLast? ≠ some cr

/-- The decoder between two events. -/
def Decoder.between (state : TextState) : Decoder where
  pending := []
  eventData := ""
  eventBytes := 0
  state

section
variable {fromStr : String → Option Json} {limits : Limits} {data : String} {rest : Bytes}

theorem OneLine.noLf_line (h : OneLine data) : lf ∉ utf8 ("data: " ++ data) := by
  rw [utf8_append, List.mem_append, not_or]
  exact ⟨by decide +kernel, h.noLf⟩

theorem OneLine.stripCr_line (h : OneLine data) : stripCr (utf8 ("data: " ++ data)) = utf8 ("data: " ++ data) := by
  have hne : utf8 data ≠ [] := by
    intro hnil
    have hsome := ofUtf8?_utf8 data
    rw [hnil] at hsome
    exact h.nonempty (Option.some.inj (hsome.symm.trans (ofUtf8?_utf8 "")))
  have hlast : (utf8 ("data: " ++ data)).getLast? = (utf8 data).getLast? := by
    rw [utf8_append, List.getLast?_append_of_ne_nil _ hne]
  rw [stripCr, hlast, if_neg h.noCr]

theorem dataValue_line : dataValue ("data: " ++ data) = some data := by
  have hs : splitOnce ':' ("data: " ++ data) = some ("data", String.ofList (' ' :: data.toList)) :=
    splitOnce_eq_some.mpr ⟨by decide, by simp⟩
  simp [dataValue, hs, stripSpace]

/-- **An event of one line is its data**, dispatched between two events. -/
theorem feed_dataEvent (h : OneLine data) (hfits : data.utf8ByteSize + 8 ≤ limits.eventBytes.toNat) (state : TextState) :
    feed fromStr limits (dataEvent data ++ rest) (.between state) =
      dispatch fromStr limits data state >>= fun x =>
        match x.1 with
        | .continued => feed fromStr limits rest (.between x.2)
        | .completed text => .ok (some text, .between x.2) := by
  have hlen : (utf8 ("data: " ++ data)).length = 6 + data.utf8ByteSize := by
    rw [utf8_length, String.utf8ByteSize_append]
    rfl
  have hblank : ("data: " ++ data).isEmpty = false := by simp
  have hdata : ¬data.isEmpty = true := by simpa using h.nonempty
  have hfits' : (0 + (6 + data.utf8ByteSize + 1)) ≤ limits.eventBytes.toNat := by omega
  have hvalue : 0 + data.utf8ByteSize ≤ limits.eventBytes.toNat := by omega
  have hline : endLine fromStr limits (utf8 ("data: " ++ data)) (.between state) =
      .ok (none, { Decoder.between state with eventData := data, eventBytes := 0 + (6 + data.utf8ByteSize + 1) }) := by
    rw [endLine_eq, h.stripCr_line, hlen, ofUtf8?_utf8]
    simp only [Decoder.between, hblank, Bool.false_eq_true, if_false, hfits', if_true]
    have hbound : within limits.eventBytes (checkedAdd 0 (data.utf8ByteSize + 0)) = .ok (0 + data.utf8ByteSize) := by
      rw [Nat.add_zero, within_checkedAdd, if_pos hvalue]
    rw [addField, dataValue_line]
    exact congrArg (Except.map _) (congrArg (· >>= _) hbound)
  have hclose : endLine fromStr limits []
      { Decoder.between state with eventData := data, eventBytes := 0 + (6 + data.utf8ByteSize + 1) } =
      closeEvent fromStr limits
        { Decoder.between state with eventData := data, eventBytes := 0 + (6 + data.utf8ByteSize + 1) + 1 } := by
    have hend : 0 + (6 + data.utf8ByteSize + 1) + 1 ≤ limits.eventBytes.toNat := by omega
    rw [endLine_eq]
    exact if_pos hend
  have hbytes : dataEvent data ++ rest = utf8 ("data: " ++ data) ++ lf :: lf :: rest := by
    rw [dataEvent, List.append_assoc]
    rfl
  rw [hbytes, feed_line h.noLf_line]
  show endLine fromStr limits (utf8 ("data: " ++ data)) (.between state) >>= _ = _
  rw [hline, ok_bind, unlessDone, feed_lf]
  show endLine fromStr limits []
    { Decoder.between state with eventData := data, eventBytes := 0 + (6 + data.utf8ByteSize + 1) } >>= _ = _
  rw [hclose, closeEvent]
  dsimp only
  rw [if_neg hdata]
  show (dispatch fromStr limits data state >>= _) >>= _ = _
  cases dispatch fromStr limits data state with
  | error e => rfl
  | ok x =>
    obtain ⟨_ | text, state'⟩ := x
    · rfl
    · rfl

end

/-! ## One after the other -/

/-- A stream of events of one line each. -/
def dataEvents (datas : List String) : Bytes := datas.flatMap dataEvent

section
variable {fromStr : String → Option Json} {limits : Limits} {datas : List String}

/-- What is made of the data, one after the other, as far as the answer. -/
def dispatchAll (fromStr : String → Option Json) (limits : Limits) : List String → TextState → Except DecodeError String
  | [], _ => .error .invalid
  | data :: datas, state => do
    match ← dispatch fromStr limits data state with
    | (.continued, state) => dispatchAll fromStr limits datas state
    | (.completed text, _) => return text

theorem feed_dataEvents (h : ∀ data ∈ datas, OneLine data)
    (hfits : ∀ data ∈ datas, data.utf8ByteSize + 8 ≤ limits.eventBytes.toNat) (state : TextState) :
    feed fromStr limits (dataEvents datas) (.between state) >>= finish = dispatchAll fromStr limits datas state := by
  induction datas generalizing state with
  | nil => rfl
  | cons data datas ih =>
    rw [dataEvents, List.flatMap_cons, feed_dataEvent (h data List.mem_cons_self) (hfits data List.mem_cons_self),
      dispatchAll]
    cases dispatch fromStr limits data state with
    | error e => rfl
    | ok x =>
      obtain ⟨_ | text, state'⟩ := x
      · exact ih (fun data' hdata => h data' (List.mem_cons_of_mem data hdata))
          (fun data' hdata => hfits data' (List.mem_cons_of_mem data hdata)) state'
      · rfl

end

instance (data : String) : Decidable (OneLine data) :=
  decidable_of_iff (data ≠ "" ∧ lf ∉ utf8 data ∧ (utf8 data).getLast? ≠ some cr)
    ⟨fun h => ⟨h.1, h.2.1, h.2.2⟩, fun h => ⟨h.nonempty, h.noLf, h.noCr⟩⟩

theorem decode_dataEvents {datas : List String} (h : ∀ data ∈ datas, OneLine data)
    (hfits : ∀ data ∈ datas, data.utf8ByteSize + 8 ≤ Limits.production.eventBytes.toNat)
    (hlen : (dataEvents datas).length ≤ Limits.production.responseBytes.toNat) :
    decode serdeFromStr .production (fun _ => 0) (Delivery.bytewise (dataEvents datas)).results =
      dispatchAll serdeFromStr .production datas .initial := by
  rw [Delivery.decode_eq _ sample_inTime hlen]
  exact feed_dataEvents h hfits .initial

/-! ## Some data -/

def deltaData (text : String) : String := "\x7b\"type\":\"response.output_text.delta\",\"delta\":\"" ++ text ++ "\"\x7d"

def doneData (text : String) : String := "\x7b\"type\":\"response.output_text.done\",\"text\":\"" ++ text ++ "\"\x7d"

def itemData (text : String) : String :=
  "\x7b\"type\":\"response.output_item.done\",\"item\":\x7b\"type\":\"message\",\"role\":\"assistant\"," ++
    "\"content\":[\x7b\"type\":\"output_text\",\"text\":\"" ++ text ++ "\"\x7d]\x7d\x7d"

def completedData : String := "\x7b\"type\":\"response.completed\"\x7d"

end AgentHarness.Sse
