/-
What a response's stream says, taken as a whole: its lines, its events, what
each of them means, and the answer up to the event that ends it. The decoder
says the same wherever the reads end, unless it comes to a limit
(`decode_eq_reference`).

Nothing of the decoder is used to say it: the ends of the lines, the types of
the events and the shape of an item are written out once more.
-/
import Mathlib.Data.List.TakeDrop
import AgentHarness.Lib.Lines
import AgentHarness.Sse.Events

namespace AgentHarness.Sse

open Text Except Lines

/-! ## Lines and events -/

/-- The line without one carriage return at its end. -/
def withoutCr (line : Bytes) : Bytes :=
  match line.reverse with
  | 0x0d :: front => front.reverse
  | _ => line

/-- The lines of the stream, each unless it is not UTF-8. -/
def lines (stream : Bytes) : List (Option String) := (whole 0x0a stream).map fun line => ofUtf8? (withoutCr line)

/-- The lines before the first that is not UTF-8. -/
def validLines (ls : List (Option String)) : List String := (ls.takeWhile Option.isSome).reduceOption

@[simp] theorem validLines_nil : validLines [] = [] := rfl
@[simp] theorem validLines_none (ls : List (Option String)) : validLines (none :: ls) = [] := rfl
@[simp] theorem validLines_some (line : String) (ls : List (Option String)) :
    validLines (some line :: ls) = line :: validLines ls := rfl

/-- The events, each the lines before an empty one. -/
def events (ls : List String) : List (List String) := whole "" ls

/-- The value of a line whose text before the first colon is `data`. -/
def lineData (line : String) : Option String :=
  match line.toList with
  | 'd' :: 'a' :: 't' :: 'a' :: ':' :: ' ' :: value => some (String.ofList value)
  | 'd' :: 'a' :: 't' :: 'a' :: ':' :: value => some (String.ofList value)
  | _ => none

/-- The values that are left once the empty ones at the front are gone. -/
def eventValues (event : List String) : List String := (event.filterMap lineData).dropWhile (·.isEmpty)

def eventData (event : List String) : String := "\n".intercalate (eventValues event)

/-! ## What events mean -/

inductive Meaning where
  | delta (text : String)
  | item (text : String)
  | done (text : String)
  | ignored
  | completed
  | failed
  | malformed
  deriving DecidableEq, Repr

/-- Nothing is read after it. -/
def Meaning.ends : Meaning → Bool
  | .completed | .failed | .malformed => true
  | _ => false

/-- The text under a name. -/
def textAt (name : String) (value : Json) : Option String :=
  match value.get name with
  | some (.str text) => some text
  | _ => none

/-- The text of a part, which is empty unless it is output text. -/
def partText (part : Json) : String :=
  match textAt "type" part, textAt "text" part with
  | some "output_text", some text => text
  | _, _ => ""

/-- The text of an item, which is empty unless it is a message of the assistant's. -/
def itemText (item : Json) : String :=
  match textAt "type" item, textAt "role" item, item.get "content" with
  | some "message", some "assistant", some (.arr parts) => String.join (parts.map partText)
  | _, _, _ => ""

def meaning (fromStr : String → Option Json) (data : String) : Meaning :=
  match fromStr data with
  | none => .malformed
  | some event =>
    match textAt "type" event with
    | some "response.output_text.delta" =>
      match textAt "delta" event with
      | some text => .delta text
      | none => .malformed
    | some "response.output_item.done" =>
      match event.get "item" with
      | some item => .item (itemText item)
      | none => .malformed
    | some "response.output_text.done" =>
      match textAt "text" event with
      | some text => .done text
      | none => .malformed
    | some "response.completed" => .completed
    | some "response.failed" | some "response.incomplete" | some "error" => .failed
    | some _ => .ignored
    | none => .malformed

/-- What the events mean that have data. -/
def meanings (fromStr : String → Option Json) (evs : List (List String)) : List Meaning :=
  ((evs.map eventData).filter (!·.isEmpty)).map (meaning fromStr)

/-! ## The answer -/

def Meaning.delta? : Meaning → Option String
  | .delta text => some text
  | _ => none

def Meaning.item? : Meaning → Option String
  | .item text => if text.isEmpty then none else some text
  | _ => none

def Meaning.done? : Meaning → Option String
  | .done text => some text
  | _ => none

/-- All deltas. -/
def deltas (ms : List Meaning) : String := String.join (ms.filterMap Meaning.delta?)

/-- The last item's text that is not empty, else the deltas if they are not,
else the last text that was done. -/
def answer (ms : List Meaning) : Except DecodeError String :=
  match ((ms.filterMap Meaning.item?).getLast?.or (if (deltas ms).isEmpty then none else some (deltas ms))).or
    (ms.filterMap Meaning.done?).getLast? with
  | none => .error .emptyText
  | some text => if text.isEmpty then .error .emptyText else .ok text

/-- The first event that ends the stream decides. -/
def conclude (ms : List Meaning) : Except DecodeError String :=
  match ms.dropWhile (!·.ends) with
  | .completed :: _ => answer (ms.takeWhile (!·.ends))
  | .failed :: _ => .error .modelFailed
  | _ => .error .invalid

def reference (fromStr : String → Option Json) (stream : Bytes) : Except DecodeError String :=
  conclude (meanings fromStr (events (validLines (lines stream))))

/-! ## The decoder's words for it -/

theorem withoutCr_eq (line : Bytes) : withoutCr line = stripCr line := by
  unfold withoutCr stripCr
  rw [← List.head?_reverse]
  split
  · rename_i front hline
    have hfront : line = front.reverse ++ [0x0d] := by
      rw [← List.reverse_reverse line, hline, List.reverse_cons]
    rw [hline, hfront]
    simp [cr]
  · rename_i hline
    rw [if_neg]
    intro hhead
    obtain ⟨front, hfront⟩ := List.head?_eq_some_iff.mp hhead
    exact hline front hfront

theorem lines_eq (stream : Bytes) : lines stream = (whole lf stream).map fun line => ofUtf8? (stripCr line) := by
  simp only [lines, withoutCr_eq, lf]

theorem textAt_eq (name : String) (value : Json) : textAt name value = getStr name value := by
  unfold textAt getStr
  cases value.get name with
  | none => rfl
  | some v => cases v <;> rfl

theorem partText_eq (part : Json) : partText part = (outputText part).getD "" := by
  unfold partText outputText
  rw [textAt_eq, textAt_eq]
  split
  · rename_i htype htext
    rw [if_pos htype, htext]
    rfl
  · rename_i hother
    by_cases htype : getStr "type" part = some "output_text"
    · rw [if_pos htype]
      cases htext : getStr "text" part with
      | none => rfl
      | some text => exact absurd htext (hother text htype)
    · rw [if_neg htype]
      rfl

theorem join_partText (parts : List Json) : String.join (parts.map partText) = String.join (parts.filterMap outputText) := by
  induction parts with
  | nil => rfl
  | cons part parts ih =>
    rw [List.map_cons, String.join_cons, ih, partText_eq]
    cases hpart : outputText part with
    | none => rw [List.filterMap_cons_none hpart, Option.getD_none, String.empty_append]
    | some text => rw [List.filterMap_cons_some hpart, String.join_cons, Option.getD_some]

theorem itemText_eq (item : Json) :
    itemText item = String.join (((assistantContent item).getD []).filterMap outputText) := by
  unfold itemText assistantContent
  rw [textAt_eq, textAt_eq]
  split
  · rename_i parts htype hrole hcontent
    have hmessage : ¬(getStr "type" item ≠ some "message" ∨ getStr "role" item ≠ some "assistant") := by
      simp [htype, hrole]
    rw [if_neg hmessage, hcontent]
    exact join_partText parts
  · rename_i hother
    split
    · rfl
    · rename_i hmessage
      have hmessage : getStr "type" item = some "message" ∧ getStr "role" item = some "assistant" := by
        simpa using hmessage
      cases hcontent : item.get "content" with
      | none => rfl
      | some content =>
        cases content with
        | arr parts => exact absurd hcontent (hother parts hmessage.1 hmessage.2)
        | null | bool _ | num _ | str _ | obj _ => rfl

/-- An event of each type the decoder tells apart. -/
theorem meaning_eq (fromStr : String → Option Json) (data : String) : meaning fromStr data =
    match fromStr data with
    | none => .malformed
    | some event =>
      match (getStr "type" event).map EventType.ofName with
      | none => .malformed
      | some .outputTextDelta => ((getStr "delta" event).map .delta).getD .malformed
      | some .outputItemDone => ((event.get "item").map fun item => .item (itemText item)).getD .malformed
      | some .outputTextDone => ((getStr "text" event).map .done).getD .malformed
      | some .completed => .completed
      | some .failed => .failed
      | some .other => .ignored := by
  unfold meaning
  cases fromStr data with
  | none => rfl
  | some event =>
    simp only [textAt_eq]
    split
    · rename_i htype
      rw [htype]
      cases getStr "delta" event <;> rfl
    · rename_i htype
      rw [htype]
      cases event.get "item" <;> rfl
    · rename_i htype
      rw [htype]
      cases getStr "text" event <;> rfl
    · rename_i htype
      rw [htype]
      rfl
    · rename_i htype
      rw [htype]
      rfl
    · rename_i htype
      rw [htype]
      rfl
    · rename_i htype
      rw [htype]
      rfl
    · rename_i name hdelta hitem hdone hcompleted hfailed hincomplete herror htype
      have hother : EventType.ofName name = .other := by
        unfold EventType.ofName
        split
        · exact (hdelta rfl).elim
        · exact (hitem rfl).elim
        · exact (hdone rfl).elim
        · exact (hcompleted rfl).elim
        · exact (hfailed rfl).elim
        · exact (hincomplete rfl).elim
        · exact (herror rfl).elim
        · rfl
      rw [htype, Option.map_some, hother]
    · rename_i htype
      rw [htype]
      rfl

/-! ## The data of an event, line by line -/

theorem dataValue_eq (line : String) : dataValue line = lineData line := by
  unfold lineData
  split
  · rename_i value h
    have hs : splitOnce ':' line = some ("data", String.ofList (' ' :: value)) :=
      splitOnce_eq_some.mpr ⟨by decide, by simpa using h⟩
    simp [dataValue, h, hs, stripSpace]
  · rename_i value hspace h
    have hs : splitOnce ':' line = some ("data", String.ofList value) :=
      splitOnce_eq_some.mpr ⟨by decide, by simpa using h⟩
    have hstrip : stripSpace (String.ofList value) = String.ofList value := by
      unfold stripSpace
      split
      · rename_i rest hrest
        rw [String.toList_ofList] at hrest
        exact absurd hrest (hspace rest)
      · rfl
    simp [dataValue, h, hs, hstrip]
  · rename_i hspace h
    unfold dataValue
    split
    · rfl
    · split
      · rfl
      · rename_i field value hs
        split
        · rfl
        · rename_i hfield
          obtain ⟨-, hline⟩ := splitOnce_eq_some.mp hs
          have hdata : field = "data" := by simpa using hfield
          subst hdata
          exact absurd hline (h value.toList)

theorem eventData_eq_empty (event : List String) : eventData event = "" ↔ eventValues event = [] := by
  constructor
  · intro h
    cases hv : eventValues event with
    | nil => rfl
    | cons value values =>
      have hne : value ≠ "" := by
        have hhead := List.head?_dropWhile_not String.isEmpty (event.filterMap lineData)
        rw [← eventValues, hv] at hhead
        simpa using hhead
      have hcut := String.intercalate_cons_append (s := "\n") (t := value) (u := "") (l := values)
      rw [String.append_empty] at hcut
      rw [eventData, hv, hcut, String.append_eq_empty_iff] at h
      exact absurd h.1 hne
  · intro h
    rw [eventData, h, String.intercalate_nil]

/-- A line adds its value, if it has one. -/
theorem eventData_append (event : List String) (line : String) : eventData (event ++ [line]) =
    match lineData line with
    | none => eventData event
    | some value => joinData (eventData event) value := by
  have hvalues : eventValues (event ++ [line]) =
      (event.filterMap lineData ++ (lineData line).toList).dropWhile (·.isEmpty) := by
    rw [eventValues, List.filterMap_append]
    rfl
  generalize lineData line = data at hvalues ⊢
  cases data with
  | none =>
    rw [Option.toList_none, List.append_nil] at hvalues
    rw [eventData, hvalues]
    rfl
  | some value =>
    rw [Option.toList_some, List.dropWhile_append, ← eventValues] at hvalues
    unfold joinData
    by_cases hempty : eventValues event = []
    · have hdata := (eventData_eq_empty event).mpr hempty
      simp only [hempty, List.isEmpty_nil, if_true] at hvalues
      rw [hdata]
      by_cases hv : value = ""
      · simp [eventData, hvalues, hv]
      · simp [eventData, hvalues, hv]
    · have hdata : (eventData event).isEmpty = false := by
        simpa using fun h => hempty ((eventData_eq_empty event).mp h)
      simp only [List.isEmpty_eq_false_iff.mpr hempty, Bool.false_eq_true, if_false] at hvalues
      simp only [hdata, Bool.false_eq_true, if_false]
      rw [eventData, hvalues, String.intercalate_append_of_ne_nil hempty (List.cons_ne_nil _ _), String.intercalate_singleton]
      rfl

theorem meanings_nil (fromStr : String → Option Json) : meanings fromStr [] = [] := rfl

theorem meanings_cons (fromStr : String → Option Json) (event : List String) (evs : List (List String)) :
    meanings fromStr (event :: evs) =
      if (eventData event).isEmpty then meanings fromStr evs
      else meaning fromStr (eventData event) :: meanings fromStr evs := by
  unfold meanings
  rw [List.map_cons]
  by_cases hempty : (eventData event).isEmpty = true
  · rw [List.filter_cons_of_neg (by simpa using hempty), if_pos hempty]
  · rw [List.filter_cons_of_pos (by simpa using hempty), List.map_cons, if_neg hempty]

/-! ## An event, up to the limits -/

/-- The texts that some events leave. -/
def texts (ms : List Meaning) : TextState where
  deltas := deltas ms
  outputItem := (ms.filterMap Meaning.item?).getLast?
  done := (ms.filterMap Meaning.done?).getLast?

/-- What the decoder makes of an event after others. -/
def Meaning.outcome (m : Meaning) (ms : List Meaning) : Except DecodeError (EventOutcome × TextState) :=
  match m with
  | .completed => (answer ms).map fun text => (.completed text, texts ms)
  | .failed => .error .modelFailed
  | .malformed => .error .invalid
  | _ => .ok (.continued, texts (ms ++ [m]))

theorem answer_texts (ms : List Meaning) : (texts ms).answer = answer ms := by
  unfold TextState.answer answer texts
  dsimp only
  generalize ((ms.filterMap Meaning.item?).getLast?.or (if (deltas ms).isEmpty then none else some (deltas ms))).or
    (ms.filterMap Meaning.done?).getLast? = text
  cases text with
  | none => rfl
  | some text =>
    simp only [okOr_some, ok_bind]
    cases text.isEmpty <;> rfl

theorem texts_append (ms : List Meaning) (m : Meaning) : texts (ms ++ [m]) =
    { deltas := (texts ms).deltas ++ m.delta?.getD ""
      outputItem := m.item?.or (texts ms).outputItem
      done := m.done?.or (texts ms).done } := by
  have hsingle : ∀ f : Meaning → Option String, [m].filterMap f = (f m).toList := fun _ => rfl
  have hlast : ∀ x : Option String, x.toList.getLast? = x := fun x => by cases x <;> rfl
  have hjoin : String.join m.delta?.toList = m.delta?.getD "" := by cases m.delta? <;> simp
  simp only [texts, deltas, List.filterMap_append, hsingle, String.join_append, List.getLast?_append, hlast, hjoin]

variable {fromStr : String → Option Json} {limits : Limits}

theorem within_upTo (limit : UInt64) (a b : Nat) :
    UpTo .limitExceeded (within limit (checkedAdd a b)) (.ok (a + b)) := by
  rw [within_checkedAdd]
  split
  · exact .of_eq rfl
  · exact .inl rfl

theorem appendBounded_upTo (target text : String) :
    UpTo .limitExceeded (appendBounded limits target text) (.ok (target ++ text)) :=
  (within_upTo limits.textBytes _ _).bind_ok (.of_eq rfl)

theorem ensureTextBound_upTo (text : String) : UpTo .limitExceeded (ensureTextBound limits text) (.ok ()) := by
  unfold ensureTextBound
  cases decide (text.utf8ByteSize > limits.textBytes.toNat)
  · exact .of_eq rfl
  · exact .inl rfl

theorem appendParts_upTo (limits : Limits) (content : List Json) (text : String) :
    UpTo .limitExceeded (content.foldlM (appendPart limits) text) (.ok (text ++ String.join (content.filterMap outputText))) := by
  induction content generalizing text with
  | nil => exact .of_eq (by simp)
  | cons part content ih =>
    rw [List.foldlM_cons]
    unfold appendPart
    cases hpart : outputText part with
    | none =>
      rw [List.filterMap_cons_none hpart]
      exact ih text
    | some s =>
      have hjoin : text ++ String.join ((part :: content).filterMap outputText) =
          text ++ s ++ String.join (content.filterMap outputText) := by
        rw [List.filterMap_cons_some hpart, String.join_cons, String.append_assoc]
      rw [hjoin]
      exact (appendBounded_upTo text s).bind_ok (ih (text ++ s))

theorem assistantItemText_upTo {event item : Json} (hitem : event.get "item" = some item) :
    UpTo .limitExceeded (assistantItemText limits event) (.ok (if (itemText item).isEmpty then none else some (itemText item))) := by
  unfold assistantItemText
  rw [hitem, okOr_some, ok_bind, itemText_eq]
  cases assistantContent item with
  | none => exact .of_eq rfl
  | some content =>
    have h := appendParts_upTo limits content ""
    rw [String.empty_append] at h
    exact h.bind_ok (.of_eq rfl)

theorem dispatch_upTo (fromStr : String → Option Json) (limits : Limits) (data : String) (ms : List Meaning) :
    UpTo .limitExceeded (dispatch fromStr limits data (texts ms)) ((meaning fromStr data).outcome ms) := by
  rw [meaning_eq]
  unfold dispatch
  cases fromStr data with
  | none => exact .of_eq rfl
  | some event =>
    simp only [okOr_some, ok_bind]
    cases getStr "type" event with
    | none => exact .of_eq rfl
    | some name =>
      simp only [okOr_some, ok_bind, Option.map_some]
      cases EventType.ofName name with
      | outputTextDelta =>
        cases getStr "delta" event with
        | none => exact .of_eq rfl
        | some delta =>
          refine (appendBounded_upTo _ delta).bind_ok (.of_eq ?_)
          simp [Meaning.outcome, texts_append, Meaning.delta?, Meaning.item?, Meaning.done?]
      | outputItemDone =>
        cases hitem : event.get "item" with
        | none =>
          refine .of_eq ?_
          simp [assistantItemText, hitem, Meaning.outcome]
        | some item =>
          refine (assistantItemText_upTo hitem).bind_ok (.of_eq ?_)
          by_cases hempty : itemText item = ""
          · simp [hempty, Meaning.outcome, texts_append, Meaning.delta?, Meaning.item?, Meaning.done?]
          · simp [hempty, Meaning.outcome, texts_append, Meaning.delta?, Meaning.item?, Meaning.done?]
      | outputTextDone =>
        cases getStr "text" event with
        | none => exact .of_eq rfl
        | some text =>
          refine (ensureTextBound_upTo text).bind_ok (.of_eq ?_)
          simp [Meaning.outcome, texts_append, Meaning.delta?, Meaning.item?, Meaning.done?]
      | completed =>
        refine .of_eq ?_
        simp only [answer_texts, Meaning.outcome]
        cases answer ms <;> rfl
      | failed => exact .of_eq rfl
      | other =>
        refine .of_eq ?_
        simp [Meaning.outcome, texts_append, Meaning.delta?, Meaning.item?, Meaning.done?]

/-! ## The whole stream, up to the limits -/

/-- No event has ended the stream. -/
def Open (ms : List Meaning) : Prop := ∀ m ∈ ms, m.ends = false

theorem Open.append {ms : List Meaning} (h : Open ms) {m : Meaning} (hm : m.ends = false) : Open (ms ++ [m]) := by
  intro m' hmem
  rcases List.mem_append.mp hmem with h' | h'
  · exact h m' h'
  · rw [List.mem_singleton.mp h']
    exact hm

theorem conclude_open {ms : List Meaning} (h : Open ms) : conclude ms = .error .invalid := by
  have hdrop : ms.dropWhile (!·.ends) = [] := List.dropWhile_eq_nil_iff.mpr fun m hm => by simp [h m hm]
  rw [conclude, hdrop]

theorem conclude_ends {ms : List Meaning} (h : Open ms) {m : Meaning} (hm : m.ends = true) (rest : List Meaning) :
    conclude (ms ++ m :: rest) = m.outcome ms >>= fun x =>
      match x.1 with
      | .continued => .error .invalid
      | .completed text => .ok text := by
  have hall : ∀ m ∈ ms, (!m.ends) = true := fun m hm => by simp [h m hm]
  rw [conclude, List.dropWhile_append_of_pos hall, List.takeWhile_append_of_pos hall,
    List.dropWhile_cons_of_neg (by simp [hm]), List.takeWhile_cons_of_neg (by simp [hm]), List.append_nil]
  cases m with
  | completed =>
    dsimp only [Meaning.outcome]
    cases answer ms <;> rfl
  | failed | malformed => rfl
  | delta _ | item _ | done _ | ignored => exact nomatch hm

theorem addField_upTo (line : String) (d : Decoder) : UpTo .limitExceeded (addField limits line d)
    (.ok { d with eventData := ((lineData line).map (joinData d.eventData)).getD d.eventData }) := by
  unfold addField
  rw [dataValue_eq]
  cases lineData line with
  | none => exact .of_eq rfl
  | some value => exact (within_upTo limits.eventBytes _ _).bind_ok (.of_eq rfl)

/-- The decoder has read the lines of an event, after other events. -/
structure HasRead (d : Decoder) (event : List String) (ms : List Meaning) : Prop where
  eventData : d.eventData = eventData event
  state : d.state = texts ms
  unended : "" ∉ event
  unfinished : Open ms

theorem HasRead.initial : HasRead .initial [] [] := ⟨rfl, rfl, List.not_mem_nil, fun _ hm => nomatch hm⟩

/-- The end of an event, before whatever follows. -/
theorem HasRead.close {d : Decoder} {event : List String} {ms : List Meaning} (h : HasRead d event ms)
    {k : Decoder → Except DecodeError (Option String × Decoder)} {evs : List (List String)}
    (hk : ∀ d' ms', d'.pending = d.pending → HasRead d' [] ms' →
      UpTo .limitExceeded (k d' >>= finish) (conclude (ms' ++ meanings fromStr evs))) :
    UpTo .limitExceeded (closeEvent fromStr limits d >>= (unlessDone · k) >>= finish)
      (conclude (ms ++ meanings fromStr (event :: evs))) := by
  have hnext : ∀ ms', Open ms' → UpTo .limitExceeded (k { d with eventData := "", eventBytes := 0, state := texts ms' } >>= finish)
      (conclude (ms' ++ meanings fromStr evs)) := fun ms' hms' => hk _ ms' rfl ⟨rfl, rfl, List.not_mem_nil, hms'⟩
  unfold closeEvent
  rw [h.eventData, h.state, meanings_cons]
  by_cases hempty : (Sse.eventData event).isEmpty = true
  · rw [if_pos hempty, if_pos hempty]
    exact hnext ms h.unfinished
  · rw [if_neg hempty, if_neg hempty]
    rcases dispatch_upTo fromStr limits (Sse.eventData event) ms with hd | hd
    · rw [hd]
      exact .inl rfl
    rw [hd]
    generalize meaning fromStr (Sse.eventData event) = m
    by_cases hends : m.ends = true
    · rw [conclude_ends h.unfinished hends]
      refine .of_eq ?_
      cases m with
      | completed =>
        dsimp only [Meaning.outcome]
        cases answer ms <;> rfl
      | failed | malformed => rfl
      | delta _ | item _ | done _ | ignored => exact nomatch hends
    · have hm : m.ends = false := by simpa using hends
      have hout : m.outcome ms = .ok (.continued, texts (ms ++ [m])) := by
        cases m <;> first | rfl | exact nomatch hm
      rw [List.append_cons, hout]
      exact hnext (ms ++ [m]) (h.unfinished.append hm)

/-- A line of an event that goes on. -/
theorem HasRead.line {d : Decoder} {event : List String} {ms : List Meaning} (h : HasRead d event ms) {text : String}
    (hne : text ≠ "") :
    HasRead { d with eventData := ((lineData text).map (joinData d.eventData)).getD d.eventData } (event ++ [text]) ms where
  eventData := by
    rw [eventData_append, h.eventData]
    cases lineData text <;> rfl
  state := h.state
  unended := fun hmem => by
    rcases List.mem_append.mp hmem with hmem | hmem
    · exact h.unended hmem
    · exact hne (List.mem_singleton.mp hmem).symm
  unfinished := h.unfinished

/-- What is left to read of a stream, as it was read so far. -/
theorem feed_upTo (fromStr : String → Option Json) (limits : Limits) (stream : Bytes) {d : Decoder} {event : List String}
    {ms : List Meaning} (h : HasRead d event ms) (hpending : lf ∉ d.pending) :
    UpTo .limitExceeded (feed fromStr limits stream d >>= finish)
      (conclude (ms ++ meanings fromStr (events (event ++ validLines (lines (d.pending ++ stream)))))) := by
  induction stream generalizing d event ms with
  | nil =>
    rw [List.append_nil, lines_eq, whole_of_not_mem hpending, List.map_nil, validLines_nil, List.append_nil, events,
      whole_of_not_mem h.unended]
    rw [meanings_nil, List.append_nil, conclude_open h.unfinished]
    exact .of_eq rfl
  | cons byte stream ih =>
    by_cases hlf : byte = lf
    · subst hlf
      have hlines : lines (d.pending ++ lf :: stream) = ofUtf8? (stripCr d.pending) :: lines stream := by
        rw [lines_eq, lines_eq, whole_append_cons hpending]
        rfl
      have hgo : ∀ d' event' ms', d'.pending = [] → HasRead d' event' ms' →
          UpTo .limitExceeded (feed fromStr limits stream d' >>= finish)
            (conclude (ms' ++ meanings fromStr (events (event' ++ validLines (lines stream))))) := by
        intro d' event' ms' hp hd'
        have hnone : lf ∉ d'.pending := hp ▸ List.not_mem_nil
        simpa only [hp, List.nil_append] using ih hd' hnone
      rw [hlines, feed_lf, endLine_eq]
      split
      · cases ofUtf8? (stripCr d.pending) with
        | none =>
          rw [validLines_none, List.append_nil, events, whole_of_not_mem h.unended, meanings_nil, List.append_nil,
            conclude_open h.unfinished]
          exact .of_eq rfl
        | some text =>
          rw [validLines_some]
          dsimp only
          generalize hd : ({ d with pending := [], eventBytes := _ } : Decoder) = d'
          have hd' : HasRead d' event ms := hd ▸ ⟨h.1, h.2, h.3, h.4⟩
          have hp' : d'.pending = [] := hd ▸ rfl
          by_cases hblank : text = ""
          · subst hblank
            rw [events, whole_append_cons h.unended]
            exact hd'.close fun d'' ms' hp hd'' => hgo d'' [] ms' (hp.trans hp') hd''
          · have hfalse : ¬text.isEmpty = true := by simpa using hblank
            rw [if_neg hfalse, List.append_cons]
            rcases addField_upTo text d' with hf | hf
            · rw [hf]
              exact .inl rfl
            · rw [hf]
              exact hgo _ (event ++ [text]) ms hp' (hd'.line hblank)
      · exact .inl rfl
    · have happend : d.pending ++ byte :: stream = d.pending ++ [byte] ++ stream := List.append_cons ..
      rw [feed_byte hlf, happend]
      split
      · exact ih ⟨h.1, h.2, h.3, h.4⟩ (by simp [hpending, Ne.symm hlf])
      · exact .inl rfl

/-- **The decoder says what the stream says**, however it is read, as long as
no limit is exceeded and the budget lasts. -/
theorem decode_eq_reference {fromStr : String → Option Json} {limits : Limits} {clock : Nat → Nat} {stream : Bytes}
    (htime : ∀ n, clock n < limits.totalBudget) (delivery : Delivery stream)
    (hlimit : decode fromStr limits clock delivery.results ≠ .error .limitExceeded) :
    decode fromStr limits clock delivery.results = reference fromStr stream := by
  have hfeed := feed_upTo fromStr limits stream HasRead.initial (List.not_mem_nil (a := lf))
  exact ((delivery.decode_upTo htime).trans hfeed).eq hlimit

/-- An item of the assistant's, of which two parts are output text, after other texts and before another's. -/
def sampleItems : List String :=
  [deltaData "wo", doneData "wo",
    "\x7b\"type\":\"response.output_item.done\",\"item\":\x7b\"type\":\"message\",\"role\":\"assistant\"," ++
      "\"content\":[\x7b\"type\":\"output_text\",\"text\":\"wor\"\x7d,\x7b\"type\":\"refusal\",\"text\":\"no\"\x7d," ++
      "\x7b\"type\":\"output_text\",\"text\":\"ld\"\x7d]\x7d\x7d",
    "\x7b\"type\":\"response.output_item.done\",\"item\":\x7b\"type\":\"reasoning\"\x7d\x7d", completedData]

def sampleDone : List String := [doneData "first", doneData "last", completedData]

def sampleFailure : List String := [deltaData "wo", "\x7b\"type\":\"response.incomplete\"\x7d"]

/-- Deltas, an item, texts that were done and a failure, each stream a byte at a time. -/
theorem decode_eq_reference_sample :
    (decode serdeFromStr .production (fun _ => 0) (Delivery.bytewise sampleStream).results =
        reference serdeFromStr sampleStream ∧ reference serdeFromStr sampleStream = .ok "é") ∧
    (decode serdeFromStr .production (fun _ => 0) (Delivery.bytewise (dataEvents sampleItems)).results =
        reference serdeFromStr (dataEvents sampleItems) ∧ reference serdeFromStr (dataEvents sampleItems) = .ok "world") ∧
    (decode serdeFromStr .production (fun _ => 0) (Delivery.bytewise (dataEvents sampleDone)).results =
        reference serdeFromStr (dataEvents sampleDone) ∧ reference serdeFromStr (dataEvents sampleDone) = .ok "last") ∧
    (decode serdeFromStr .production (fun _ => 0) (Delivery.bytewise (dataEvents sampleFailure)).results =
        reference serdeFromStr (dataEvents sampleFailure) ∧
      reference serdeFromStr (dataEvents sampleFailure) = .error .modelFailed) := by
  have hsame : ∀ {stream : Bytes} {result : Except DecodeError String},
      decode serdeFromStr .production (fun _ => 0) (Delivery.bytewise stream).results = result →
      result ≠ .error .limitExceeded →
      decode serdeFromStr .production (fun _ => 0) (Delivery.bytewise stream).results = reference serdeFromStr stream ∧
        reference serdeFromStr stream = result := by
    intro stream result hresult hlimit
    have h := decode_eq_reference sample_inTime (Delivery.bytewise stream) (hresult ▸ hlimit)
    exact ⟨h, h.symm.trans hresult⟩
  have hitems := @decode_dataEvents sampleItems (by decide +kernel) (by decide +kernel) (by decide +kernel)
  have hdone := @decode_dataEvents sampleDone (by decide +kernel) (by decide +kernel) (by decide +kernel)
  have hfailure := @decode_dataEvents sampleFailure (by decide +kernel) (by decide +kernel) (by decide +kernel)
  refine ⟨hsame sample_decoded (by simp), hsame (hitems.trans ?_) (by simp), hsame (hdone.trans ?_) (by simp),
    hsame (hfailure.trans ?_) (by simp)⟩
  · decide +kernel
  · decide +kernel
  · decide +kernel

end AgentHarness.Sse
