/-
Responses of several messages. Each message comes as deltas and then, where
the stream has them, as an item. Deltas add up over the whole response, while
an item takes the place of the one before it, so that the two ways to the
answer agree on responses of one message and on no others.
-/
import AgentHarness.Sse.Reference

namespace AgentHarness.Sse

open Text Except Lines

/-! ## Joined texts -/

theorem join_flatMap {α : Type} (l : List α) (f : α → List String) :
    String.join (l.flatMap f) = String.join (l.map fun a => String.join (f a)) := by
  rw [← String.toList_inj]
  simp [List.flatMap_assoc, List.flatMap_map]

/-- A text is the end of itself only. -/
theorem append_eq_right_iff {s t : String} : s ++ t = t ↔ s = "" := by
  constructor
  · intro h
    have hlist : s.toList ++ t.toList = t.toList := by rw [← String.toList_append, h]
    exact String.toList_eq_nil_iff.mp (by simpa using hlist)
  · intro heq
    subst heq
    exact String.empty_append

theorem join_eq_empty_iff {l : List String} : String.join l = "" ↔ ∀ s ∈ l, s = "" := by
  rw [← String.toList_eq_nil_iff, String.toList_join, List.flatMap_eq_nil_iff]
  simp only [String.toList_eq_nil_iff]

/-! ## Messages -/

/-- A message of the assistant's, by its deltas, with some text. -/
structure Message where
  deltas : List String
  nonempty : String.join deltas ≠ ""

namespace Message

def text (m : Message) : String := String.join m.deltas

/-- The deltas, and the whole message once they are over. -/
def meanings (m : Message) : List Meaning := m.deltas.map .delta ++ [.item m.text]

end Message

/-- The event bears on the answer: it is a delta, or an item with some text. -/
def Meaning.speaks : Meaning → Bool
  | .delta _ => true
  | .item text => !text.isEmpty
  | _ => false

/-- What the stream says, up to the event that completes it, is this, next to
events that do not bear on the answer while there are deltas. -/
def Says (fromStr : String → Option Json) (stream : Bytes) (said : List Meaning) : Prop :=
  ∃ body rest, meanings fromStr (events (validLines (lines stream))) = body ++ .completed :: rest ∧ Open body ∧
    body.filter Meaning.speaks = said

/-- All the messages, with an item each. -/
def withItems (messages : List Message) : List Meaning := messages.flatMap Message.meanings

/-- All the messages, by their deltas only. -/
def withoutItems (messages : List Message) : List Meaning := (messages.flatMap Message.deltas).map .delta

/-- What all the messages say. -/
def wholeText (messages : List Message) : String := String.join (messages.map Message.text)

section
variable {fromStr : String → Option Json} {stream : Bytes} {said : List Meaning} {messages : List Message}

theorem filterMap_speaks (f : Meaning → Option String) (hf : ∀ m, m.speaks = false → f m = none) (ms : List Meaning) :
    (ms.filter Meaning.speaks).filterMap f = ms.filterMap f := by
  induction ms with
  | nil => rfl
  | cons m ms ih =>
    cases hm : m.speaks with
    | false => rw [List.filter_cons_of_neg (by simp [hm]), List.filterMap_cons_none (hf m hm), ih]
    | true =>
      rw [List.filter_cons_of_pos hm]
      cases hfm : f m with
      | none => rw [List.filterMap_cons_none hfm, List.filterMap_cons_none hfm, ih]
      | some s => rw [List.filterMap_cons_some hfm, List.filterMap_cons_some hfm, ih]

/-- Deltas that say something leave the other texts that are done aside. -/
theorem reference_says (h : Says fromStr stream said) (hdeltas : deltas said ≠ "") :
    reference fromStr stream = .ok (((said.filterMap Meaning.item?).getLast?).getD (deltas said)) := by
  obtain ⟨body, rest, hmeanings, hopen, rfl⟩ := h
  have hitems : (body.filter Meaning.speaks).filterMap Meaning.item? = body.filterMap Meaning.item? := by
    refine filterMap_speaks _ (fun m hm => ?_) body
    cases m with
    | item text =>
      rw [Meaning.speaks, Bool.not_eq_false'] at hm
      rw [Meaning.item?, if_pos hm]
    | _ => rfl
  have hjoin : deltas (body.filter Meaning.speaks) = deltas body := by
    refine congrArg String.join (filterMap_speaks _ (fun m hm => ?_) body)
    cases m with
    | delta text => cases hm
    | _ => rfl
  have hnonempty : ∀ text ∈ (body.filterMap Meaning.item?).getLast?, text.isEmpty = false := by
    intro text htext
    obtain ⟨m, -, hm⟩ := List.mem_filterMap.mp (List.mem_of_getLast? htext)
    cases m with
    | item text' =>
      rw [Meaning.item?] at hm
      split at hm
      · cases hm
      · rename_i hempty
        cases hm
        exact Bool.eq_false_iff.mpr hempty
    | _ => cases hm
  rw [hjoin] at hdeltas
  have hsome : (deltas body).isEmpty = false := by simpa using hdeltas
  rw [reference, hmeanings, conclude_ends hopen rfl, hitems, hjoin]
  simp only [Meaning.outcome, answer, hsome, Bool.false_eq_true, if_false]
  cases hlast : (body.filterMap Meaning.item?).getLast? with
  | none =>
    simp only [Option.none_or, Option.some_or, hsome, Bool.false_eq_true, if_false]
    rfl
  | some text =>
    have htext := hnonempty text hlast
    simp only [Option.some_or, htext, Bool.false_eq_true, if_false]
    rfl

theorem deltas_withoutItems (messages : List Message) : deltas (withoutItems messages) = wholeText messages := by
  have hdeltas : (withoutItems messages).filterMap Meaning.delta? = messages.flatMap Message.deltas := by
    rw [withoutItems, List.filterMap_map]
    exact List.filterMap_some
  rw [deltas, hdeltas, join_flatMap]
  rfl

theorem items_withoutItems (messages : List Message) : (withoutItems messages).filterMap Meaning.item? = [] := by
  refine List.filterMap_eq_nil_iff.mpr fun m hm => ?_
  obtain ⟨delta, -, rfl⟩ := List.mem_map.mp hm
  rfl

theorem deltas_withItems (messages : List Message) : deltas (withItems messages) = wholeText messages := by
  have hdeltas : (withItems messages).filterMap Meaning.delta? = messages.flatMap Message.deltas := by
    rw [withItems, List.filterMap_flatMap]
    refine congrArg (messages.flatMap ·) (funext fun m => ?_)
    rw [Message.meanings, List.filterMap_append, List.filterMap_map, List.filterMap_cons_none rfl, List.filterMap_nil,
      List.append_nil]
    exact List.filterMap_some
  rw [deltas, hdeltas, join_flatMap]
  rfl

theorem items_withItems (messages : List Message) :
    (withItems messages).filterMap Meaning.item? = messages.map Message.text := by
  have hone : ∀ m : Message, m.meanings.filterMap Meaning.item? = [m.text] := by
    intro m
    have hnone : (m.deltas.map Meaning.delta).filterMap Meaning.item? = [] := by
      refine List.filterMap_eq_nil_iff.mpr fun x hx => ?_
      obtain ⟨delta, -, rfl⟩ := List.mem_map.mp hx
      rfl
    have hitem : (Meaning.item m.text).item? = some m.text := by
      have hne : ¬m.text.isEmpty = true := by
        rw [String.isEmpty_iff]
        exact m.nonempty
      rw [Meaning.item?, if_neg hne]
    rw [Message.meanings, List.filterMap_append, hnone, List.nil_append, List.filterMap_cons_some hitem, List.filterMap_nil]
  rw [withItems, List.filterMap_flatMap]
  simp only [hone]
  exact List.map_eq_flatMap.symm

theorem wholeText_ne_empty (hne : messages ≠ []) : wholeText messages ≠ "" := by
  obtain ⟨m, ms, rfl⟩ := List.exists_cons_of_ne_nil hne
  intro h
  exact m.nonempty (join_eq_empty_iff.mp h m.text (List.mem_cons_self ..))

/-- The last message is all of them only when it is the only one. -/
theorem last_eq_wholeText_iff (hne : messages ≠ []) :
    (messages.getLast hne).text = wholeText messages ↔ messages.length = 1 := by
  obtain ⟨init, last, rfl⟩ : ∃ init last, messages = init ++ [last] :=
    ⟨_, _, (List.dropLast_concat_getLast hne).symm⟩
  have hwhole : wholeText (init ++ [last]) = wholeText init ++ last.text := by
    simp [wholeText, String.join_append]
  rw [List.getLast_concat, hwhole, eq_comm, append_eq_right_iff, List.length_append, List.length_singleton]
  constructor
  · intro h
    by_contra hlen
    exact wholeText_ne_empty (fun hinit => hlen (by rw [hinit]; rfl)) h
  · intro h
    have hinit : init = [] := List.length_eq_zero_iff.mp (by omega)
    rw [hinit]
    rfl

variable {limits : Limits} {clock clock' : Nat → Nat} {stream' : Bytes}

/-- **The competing text sources agree** on a response of one message, and on
no response of more: with their items, those are decoded to the last message. -/
theorem decode_messages (hne : messages ≠ []) (hs : Says fromStr stream (withItems messages))
    (hs' : Says fromStr stream' (withoutItems messages)) (htime : ∀ n, clock n < limits.totalBudget)
    (htime' : ∀ n, clock' n < limits.totalBudget) (delivery : Delivery stream) (delivery' : Delivery stream')
    (hlimit : decode fromStr limits clock delivery.results ≠ .error .limitExceeded)
    (hlimit' : decode fromStr limits clock' delivery'.results ≠ .error .limitExceeded) :
    ((decode fromStr limits clock delivery.results = .ok (wholeText messages) ∧
      decode fromStr limits clock' delivery'.results = .ok (wholeText messages)) ↔ messages.length = 1) ∧
    decode fromStr limits clock delivery.results = .ok (messages.getLast hne).text := by
  have hwith : decode fromStr limits clock delivery.results = .ok (messages.getLast hne).text := by
    rw [decode_eq_reference htime delivery hlimit,
      reference_says hs (deltas_withItems messages ▸ wholeText_ne_empty hne), items_withItems, List.getLast?_map,
      List.getLast?_eq_some_getLast hne]
    rfl
  have hwithout : decode fromStr limits clock' delivery'.results = .ok (wholeText messages) := by
    rw [decode_eq_reference htime' delivery' hlimit',
      reference_says hs' (deltas_withoutItems messages ▸ wholeText_ne_empty hne), items_withoutItems, deltas_withoutItems]
    rfl
  refine ⟨?_, hwith⟩
  rw [hwith, ← last_eq_wholeText_iff hne, Except.ok.injEq]
  exact ⟨fun h => h.1, fun h => ⟨h, hwithout⟩⟩

end

/-! ## Streams of events of one line -/

section
variable {fromStr : String → Option Json} {data : String} {datas : List String} {rest : Bytes}

/-- It means what its data mean. -/
theorem meanings_dataEvent (h : OneLine data) : meanings fromStr (events (validLines (lines (dataEvent data ++ rest)))) =
    meaning fromStr data :: meanings fromStr (events (validLines (lines rest))) := by
  have hbytes : dataEvent data ++ rest = utf8 ("data: " ++ data) ++ lf :: ([] ++ lf :: rest) := by
    rw [dataEvent, List.append_assoc]
    rfl
  have hlines : lines (dataEvent data ++ rest) = some ("data: " ++ data) :: some "" :: lines rest := by
    rw [hbytes, lines_eq, lines_eq, whole_append_cons h.noLf_line, whole_append_cons List.not_mem_nil, List.map_cons, List.map_cons,
      h.stripCr_line, ofUtf8?_utf8]
    rfl
  have hne : "" ∉ ["data: " ++ data] := by simp
  have hevent : eventData ["data: " ++ data] = data := by
    have happ := eventData_append [] ("data: " ++ data)
    rw [List.nil_append, ← dataValue_eq, dataValue_line] at happ
    rw [happ]
    rfl
  have hdata : ¬data.isEmpty = true := by simpa using h.nonempty
  rw [hlines, validLines_some, validLines_some, events, ← List.singleton_append, whole_append_cons hne, meanings_cons,
    hevent, if_neg hdata]
  rfl

theorem meanings_dataEvents (h : ∀ data ∈ datas, OneLine data) :
    meanings fromStr (events (validLines (lines (dataEvents datas)))) = datas.map (meaning fromStr) := by
  induction datas with
  | nil =>
    show meanings fromStr (events (validLines (lines []))) = []
    rfl
  | cons data datas ih =>
    rw [dataEvents, List.flatMap_cons, meanings_dataEvent (h data List.mem_cons_self), List.map_cons]
    exact congrArg _ (ih fun data' hdata => h data' (List.mem_cons_of_mem data hdata))

end

theorem says_dataEvents {datas : List String} {said : List Meaning} (h : ∀ data ∈ datas, OneLine data)
    (hmeanings : datas.map (meaning serdeFromStr) = said ++ [.completed]) (hspeaks : ∀ m ∈ said, m.speaks = true) :
    Says serdeFromStr (dataEvents datas) said := by
  refine ⟨said, [], ?_, ?_, ?_⟩
  · rw [meanings_dataEvents h, hmeanings]
  · intro m hm
    cases m with
    | delta _ | item _ | done _ | ignored => rfl
    | completed | failed | malformed => exact absurd (hspeaks _ hm) (by decide)
  · exact List.filter_eq_self.mpr hspeaks

/-! ## One message, and two -/

def sampleMessages : List Message := [⟨["Hello, "], by decide⟩, ⟨["wor", "ld"], by decide⟩]

/-- Both messages, with an item each. -/
def itemsDatas : List String :=
  [deltaData "Hello, ", itemData "Hello, ", deltaData "wor", deltaData "ld", itemData "world", completedData]

/-- The same messages without their items. -/
def deltasDatas : List String := [deltaData "Hello, ", deltaData "wor", deltaData "ld", completedData]

/-- With its item the first message is dropped. -/
theorem first_message_dropped :
    Says serdeFromStr (dataEvents itemsDatas) (withItems sampleMessages) ∧
    Says serdeFromStr (dataEvents deltasDatas) (withoutItems sampleMessages) ∧
    decode serdeFromStr .production (fun _ => 0) (Delivery.bytewise (dataEvents itemsDatas)).results = .ok "world" ∧
    decode serdeFromStr .production (fun _ => 0) (Delivery.bytewise (dataEvents deltasDatas)).results = .ok "Hello, world" := by
  have hitems : ∀ data ∈ itemsDatas, OneLine data := by decide +kernel
  have hdeltas : ∀ data ∈ deltasDatas, OneLine data := by decide +kernel
  refine ⟨says_dataEvents hitems (by decide +kernel) (by decide +kernel),
    says_dataEvents hdeltas (by decide +kernel) (by decide +kernel), ?_, ?_⟩
  · rw [decode_dataEvents hitems (by decide +kernel) (by decide +kernel)]
    decide +kernel
  · rw [decode_dataEvents hdeltas (by decide +kernel) (by decide +kernel)]
    decide +kernel

def sampleMessage : Message := ⟨["Hello"], by decide⟩

/-- A response of one message, either way. -/
theorem decode_messages_sample :
    decode serdeFromStr .production (fun _ => 0)
      (Delivery.bytewise (dataEvents [deltaData "Hello", itemData "Hello", completedData])).results = .ok "Hello" := by
  have hitems : ∀ data ∈ [deltaData "Hello", itemData "Hello", completedData], OneLine data := by decide +kernel
  have hdeltas : ∀ data ∈ [deltaData "Hello", completedData], OneLine data := by decide +kernel
  have hlimit : decode serdeFromStr .production (fun _ => 0)
      (Delivery.bytewise (dataEvents [deltaData "Hello", itemData "Hello", completedData])).results ≠
      .error .limitExceeded := by
    rw [decode_dataEvents hitems (by decide +kernel) (by decide +kernel)]
    decide +kernel
  have hlimit' : decode serdeFromStr .production (fun _ => 0)
      (Delivery.bytewise (dataEvents [deltaData "Hello", completedData])).results ≠ .error .limitExceeded := by
    rw [decode_dataEvents hdeltas (by decide +kernel) (by decide +kernel)]
    decide +kernel
  have h := decode_messages (List.cons_ne_nil sampleMessage [])
    (says_dataEvents hitems (by decide +kernel) (by decide +kernel))
    (says_dataEvents hdeltas (by decide +kernel) (by decide +kernel)) sample_inTime sample_inTime (Delivery.bytewise _)
    (Delivery.bytewise _) hlimit hlimit'
  exact (h.1.mpr rfl).1

end AgentHarness.Sse
